import BloomRelay.Protocol.Receipt
import Mathlib.Data.List.Basic

/-!
# The pinned receipt keys

`verify_bytes` stops at the first key that settles the receipt: one that does not decode, or one for
which `verify` answers anything but `InvalidSignature`. All that `verify` checks before the signature
is the same for every key, so the keys that settle a receipt by decoding agree; one that does not
decode hides every key behind it.
-/

namespace BloomRelay.Protocol.AllocationReceipt

open Checked

section Crypto

variable (crypto : Crypto) (jcs : Allocation → Uuid → String → Nat → Option Bytes)
  (receipt : AllocationReceipt) (operationId : Uuid) (adminPublicKey : Bytes32) (nowMs : Nat)

/-! ## One key -/

/-- The checks of `verify` that do not look at the key, up to the message and the signature. -/
def checked : Except ProtocolError (Bytes × Bytes) := do
  validateHostname receipt.allocation.hostname
  require (receipt.operationId = operationId ∧
    receipt.adminKeySha256 = sha256Hex crypto (beBytes 32 adminPublicKey) ∧
    receipt.issuedAtMs ≤ min (nowMs + trustedResponseClockSkewMs) (2 ^ 64 - 1) ∧
    nowMs - receipt.issuedAtMs ≤ 300000) .unauthorized
  let signature ← found (crypto.decodeSignature receipt.signature) .invalidSignature
  let message ← receipt.signedBytes jcs
  .ok (message, signature)

theorem verify_eq (key : Bytes32) :
    receipt.verify crypto jcs key operationId adminPublicKey nowMs =
      (receipt.checked crypto jcs operationId adminPublicKey nowMs >>= fun parts =>
        require (crypto.verifies key parts.1 parts.2 = true) .invalidSignature) := by
  simp only [verify, checked, bind_assoc]
  rfl

/-- The key decodes to a verifying key under which `verify` accepts the receipt. -/
def Accepts (key : Bytes32) : Prop :=
  crypto.verifyingKey key = true ∧
    receipt.verify crypto jcs key operationId adminPublicKey nowMs = .ok ()

/-- The key decodes, and `verify` has an answer other than a bad signature for it. -/
def Settles (key : Bytes32) : Prop :=
  crypto.verifyingKey key = true ∧
    receipt.verify crypto jcs key operationId adminPublicKey nowMs ≠ .error .invalidSignature

variable {crypto jcs receipt operationId adminPublicKey nowMs}

theorem Accepts.settles {key : Bytes32}
    (h : Accepts crypto jcs receipt operationId adminPublicKey nowMs key) :
    Settles crypto jcs receipt operationId adminPublicKey nowMs key := by
  refine ⟨h.1, ?_⟩
  rw [h.2]
  exact fun hne => nomatch hne

/-- Keys that settle a receipt by decoding give the same answer. -/
theorem Settles.verify_eq_verify {key key' : Bytes32}
    (h : Settles crypto jcs receipt operationId adminPublicKey nowMs key)
    (h' : Settles crypto jcs receipt operationId adminPublicKey nowMs key') :
    receipt.verify crypto jcs key operationId adminPublicKey nowMs =
      receipt.verify crypto jcs key' operationId adminPublicKey nowMs := by
  obtain ⟨-, h⟩ := h
  obtain ⟨-, h'⟩ := h'
  rw [verify_eq] at h h' ⊢
  rw [verify_eq]
  cases hchecked : receipt.checked crypto jcs operationId adminPublicKey nowMs with
  | error e => rfl
  | ok parts =>
    rw [hchecked] at h h'
    -- only the signature is left, and a bad one settles nothing
    have hok : ∀ k, (require (crypto.verifies k parts.1 parts.2 = true) .invalidSignature :
        Except ProtocolError Unit) ≠ .error .invalidSignature →
          crypto.verifies k parts.1 parts.2 = true := by
      intro k hne
      by_contra hbad
      exact hne (require_eq_error.2 ⟨hbad, rfl⟩)
    have hgood : (require (crypto.verifies key parts.1 parts.2 = true) .invalidSignature :
        Except ProtocolError Unit) = .ok () := require_eq_ok.2 (hok key h)
    have hgood' : (require (crypto.verifies key' parts.1 parts.2 = true) .invalidSignature :
        Except ProtocolError Unit) = .ok () := require_eq_ok.2 (hok key' h')
    exact hgood.trans hgood'.symm

/-! ## The loop -/

theorem verifyBytes_nil :
    receipt.verifyBytes crypto jcs [] operationId adminPublicKey nowMs = .error .invalidSignature :=
  rfl

theorem verifyBytes_cons_undecodable {key : Bytes32} (hkey : crypto.verifyingKey key = false)
    (keys : List Bytes32) :
    receipt.verifyBytes crypto jcs (key :: keys) operationId adminPublicKey nowMs =
      .error .invalidSignature := by
  simp [verifyBytes, verifyLoop, require, hkey, bind, Except.bind]

theorem verifyBytes_cons_settled {key : Bytes32}
    (h : Settles crypto jcs receipt operationId adminPublicKey nowMs key) (keys : List Bytes32) :
    receipt.verifyBytes crypto jcs (key :: keys) operationId adminPublicKey nowMs =
      receipt.verify crypto jcs key operationId adminPublicKey nowMs := by
  obtain ⟨hkey, hne⟩ := h
  simp only [verifyBytes, verifyLoop, require, hkey, if_true, bind, Except.bind]

/-- A key that decodes and does not settle the receipt is passed over. -/
theorem verifyBytes_cons_passed {key : Bytes32} (hkey : crypto.verifyingKey key = true)
    (h : ¬ Settles crypto jcs receipt operationId adminPublicKey nowMs key) (keys : List Bytes32) :
    receipt.verifyBytes crypto jcs (key :: keys) operationId adminPublicKey nowMs =
      receipt.verifyBytes crypto jcs keys operationId adminPublicKey nowMs := by
  have hbad : receipt.verify crypto jcs key operationId adminPublicKey nowMs =
      .error .invalidSignature := by
    by_contra hne
    exact h ⟨hkey, hne⟩
  simp only [verifyBytes, verifyLoop, require, hkey, if_true, bind, Except.bind, hbad]

theorem verifyBytes_of_none_settles {keys : List Bytes32}
    (h : ∀ key ∈ keys, ¬ Settles crypto jcs receipt operationId adminPublicKey nowMs key) :
    receipt.verifyBytes crypto jcs keys operationId adminPublicKey nowMs =
      .error .invalidSignature := by
  induction keys with
  | nil => exact verifyBytes_nil
  | cons key keys ih =>
    cases hkey : crypto.verifyingKey key with
    | false => exact verifyBytes_cons_undecodable hkey keys
    | true =>
      rw [verifyBytes_cons_passed hkey (h key List.mem_cons_self)]
      exact ih fun k hk => h k (List.mem_cons_of_mem _ hk)

theorem verifyBytes_of_settles {keys : List Bytes32} {key : Bytes32}
    (hdecode : ∀ k ∈ keys, crypto.verifyingKey k = true) (hmem : key ∈ keys)
    (h : Settles crypto jcs receipt operationId adminPublicKey nowMs key) :
    receipt.verifyBytes crypto jcs keys operationId adminPublicKey nowMs =
      receipt.verify crypto jcs key operationId adminPublicKey nowMs := by
  induction keys with
  | nil => exact absurd hmem List.not_mem_nil
  | cons k keys ih =>
    by_cases hk : Settles crypto jcs receipt operationId adminPublicKey nowMs k
    · rw [verifyBytes_cons_settled hk]
      exact hk.verify_eq_verify h
    · rw [verifyBytes_cons_passed (hdecode k List.mem_cons_self) hk]
      refine ih (fun x hx => hdecode x (List.mem_cons_of_mem _ hx)) ?_
      rcases List.mem_cons.1 hmem with rfl | hmem
      · exact absurd h hk
      · exact hmem

variable (crypto jcs receipt operationId adminPublicKey nowMs)

/-! ## The keys as a set -/

/-- The list is read as a set of keys: a receipt is accepted if one of them accepts it, the answer is
that of any list with the same members, and it stays accepted when `pin` is added anywhere. -/
structure PinsFormSet (keys : List Bytes32) (pin : Bytes32) : Prop where
  accepted : receipt.verifyBytes crypto jcs keys operationId adminPublicKey nowMs = .ok () ↔
    ∃ key ∈ keys, Accepts crypto jcs receipt operationId adminPublicKey nowMs key
  members : ∀ keys' : List Bytes32, (∀ key, key ∈ keys' ↔ key ∈ keys) →
    receipt.verifyBytes crypto jcs keys' operationId adminPublicKey nowMs =
      receipt.verifyBytes crypto jcs keys operationId adminPublicKey nowMs
  added : ∀ front back, keys = front ++ back →
    receipt.verifyBytes crypto jcs keys operationId adminPublicKey nowMs = .ok () →
      receipt.verifyBytes crypto jcs (front ++ pin :: back) operationId adminPublicKey nowMs = .ok ()

/-- No key of the list fails to decode while another one settles the receipt. -/
def Unhidden (keys : List Bytes32) : Prop :=
  (∀ key ∈ keys, crypto.verifyingKey key = true) ∨
    ∀ key ∈ keys, ¬ Settles crypto jcs receipt operationId adminPublicKey nowMs key

variable {crypto jcs receipt operationId adminPublicKey nowMs}

theorem Unhidden.congr {keys keys' : List Bytes32}
    (h : Unhidden crypto jcs receipt operationId adminPublicKey nowMs keys)
    (hsame : ∀ key, key ∈ keys' ↔ key ∈ keys) :
    Unhidden crypto jcs receipt operationId adminPublicKey nowMs keys' := by
  rcases h with hdecode | hnone
  · exact .inl fun key hkey => hdecode key ((hsame key).1 hkey)
  · exact .inr fun key hkey => hnone key ((hsame key).1 hkey)

theorem Unhidden.verifyBytes_of_mem {keys : List Bytes32} {key : Bytes32}
    (h : Unhidden crypto jcs receipt operationId adminPublicKey nowMs keys) (hmem : key ∈ keys)
    (hkey : Settles crypto jcs receipt operationId adminPublicKey nowMs key) :
    receipt.verifyBytes crypto jcs keys operationId adminPublicKey nowMs =
      receipt.verify crypto jcs key operationId adminPublicKey nowMs := by
  rcases h with hdecode | hnone
  · exact verifyBytes_of_settles hdecode hmem hkey
  · exact absurd hkey (hnone key hmem)

theorem Unhidden.members {keys keys' : List Bytes32}
    (h : Unhidden crypto jcs receipt operationId adminPublicKey nowMs keys)
    (hsame : ∀ key, key ∈ keys' ↔ key ∈ keys) :
    receipt.verifyBytes crypto jcs keys' operationId adminPublicKey nowMs =
      receipt.verifyBytes crypto jcs keys operationId adminPublicKey nowMs := by
  by_cases hsettled : ∃ key ∈ keys, Settles crypto jcs receipt operationId adminPublicKey nowMs key
  · obtain ⟨key, hmem, hkey⟩ := hsettled
    rw [h.verifyBytes_of_mem hmem hkey,
      (h.congr hsame).verifyBytes_of_mem ((hsame key).2 hmem) hkey]
  · have hnone : ∀ key ∈ keys, ¬ Settles crypto jcs receipt operationId adminPublicKey nowMs key :=
      fun key hmem hkey => hsettled ⟨key, hmem, hkey⟩
    rw [verifyBytes_of_none_settles hnone,
      verifyBytes_of_none_settles fun key hmem => hnone key ((hsame key).1 hmem)]

theorem Unhidden.accepted {keys : List Bytes32}
    (h : Unhidden crypto jcs receipt operationId adminPublicKey nowMs keys) :
    receipt.verifyBytes crypto jcs keys operationId adminPublicKey nowMs = .ok () ↔
      ∃ key ∈ keys, Accepts crypto jcs receipt operationId adminPublicKey nowMs key := by
  constructor
  · intro hok
    by_cases hsettled : ∃ key ∈ keys, Settles crypto jcs receipt operationId adminPublicKey nowMs key
    · obtain ⟨key, hmem, hkey⟩ := hsettled
      rw [h.verifyBytes_of_mem hmem hkey] at hok
      exact ⟨key, hmem, hkey.1, hok⟩
    · rw [verifyBytes_of_none_settles fun key hmem hkey => hsettled ⟨key, hmem, hkey⟩] at hok
      cases hok
  · rintro ⟨key, hmem, hkey⟩
    rw [h.verifyBytes_of_mem hmem hkey.settles]
    exact hkey.2

/-- A pin that decodes can be added to a list that accepts the receipt. -/
theorem Unhidden.add {keys : List Bytes32} {pin : Bytes32}
    (h : Unhidden crypto jcs receipt operationId adminPublicKey nowMs keys)
    (hpin : crypto.verifyingKey pin = true) (front back : List Bytes32) (hkeys : keys = front ++ back)
    (hok : receipt.verifyBytes crypto jcs keys operationId adminPublicKey nowMs = .ok ()) :
    receipt.verifyBytes crypto jcs (front ++ pin :: back) operationId adminPublicKey nowMs =
      .ok () := by
  obtain ⟨key, hmem, hkey⟩ := h.accepted.1 hok
  have hdecode : ∀ k ∈ keys, crypto.verifyingKey k = true := by
    rcases h with hdecode | hnone
    · exact hdecode
    · exact absurd hkey.settles (hnone key hmem)
  have hall : ∀ k ∈ front ++ pin :: back, crypto.verifyingKey k = true := by
    intro k hk
    rcases List.mem_append.1 hk with hk | hk
    · exact hdecode k (hkeys ▸ List.mem_append_left _ hk)
    · rcases List.mem_cons.1 hk with rfl | hk
      · exact hpin
      · exact hdecode k (hkeys ▸ List.mem_append_right _ hk)
  have hmem' : key ∈ front ++ pin :: back := by
    rw [hkeys] at hmem
    rcases List.mem_append.1 hmem with hmem | hmem
    · exact List.mem_append_left _ hmem
    · exact List.mem_append_right _ (List.mem_cons_of_mem _ hmem)
  rw [verifyBytes_of_settles hall hmem' hkey.settles]
  exact hkey.2

/-- A list whose answer depends on its members only hides no key: one that does not decode, put in
front, would hide a key that settles the receipt. -/
theorem unhidden_of_members {keys : List Bytes32}
    (h : ∀ keys' : List Bytes32, (∀ key, key ∈ keys' ↔ key ∈ keys) →
      receipt.verifyBytes crypto jcs keys' operationId adminPublicKey nowMs =
        receipt.verifyBytes crypto jcs keys operationId adminPublicKey nowMs) :
    Unhidden crypto jcs receipt operationId adminPublicKey nowMs keys := by
  by_contra hhidden
  rw [Unhidden, not_or] at hhidden
  obtain ⟨hundecodable, hsettled⟩ := hhidden
  simp only [not_forall, not_not] at hundecodable hsettled
  obtain ⟨bad, hbad, hfalse⟩ := hundecodable
  obtain ⟨good, hgood, hkey⟩ := hsettled
  have hagain : ∀ k ∈ keys, ∀ key, key ∈ k :: keys ↔ key ∈ keys := by
    intro k hk key
    constructor
    · intro hmem
      rcases List.mem_cons.1 hmem with rfl | hmem
      · exact hk
      · exact hmem
    · exact List.mem_cons_of_mem _
  have hfront := h (bad :: keys) (hagain bad hbad)
  have hanswer := h (good :: keys) (hagain good hgood)
  rw [verifyBytes_cons_undecodable (Bool.eq_false_iff.2 hfalse)] at hfront
  rw [verifyBytes_cons_settled hkey, ← hfront] at hanswer
  exact hkey.2 hanswer

/-- The pinned keys form a set exactly when no key that does not decode stands beside one that settles
the receipt, and none is added to a list that accepts it. -/
theorem pins_form_set_iff (crypto : Crypto) (jcs : Allocation → Uuid → String → Nat → Option Bytes)
    (receipt : AllocationReceipt) (operationId : Uuid) (adminPublicKey : Bytes32) (nowMs : Nat)
    (keys : List Bytes32) (pin : Bytes32) :
    PinsFormSet crypto jcs receipt operationId adminPublicKey nowMs keys pin ↔
      Unhidden crypto jcs receipt operationId adminPublicKey nowMs keys ∧
      ((∃ key ∈ keys, Accepts crypto jcs receipt operationId adminPublicKey nowMs key) →
        crypto.verifyingKey pin = true) := by
  constructor
  · intro h
    refine ⟨unhidden_of_members h.members, fun haccepts => ?_⟩
    by_contra hpin
    have hfront := h.added [] keys rfl (h.accepted.2 haccepts)
    rw [List.nil_append, verifyBytes_cons_undecodable (Bool.eq_false_iff.2 hpin)] at hfront
    cases hfront
  · rintro ⟨hkeys, hpin⟩
    refine ⟨hkeys.accepted, fun keys' hsame => hkeys.members hsame, fun front back hsplit hok => ?_⟩
    exact hkeys.add (hpin (hkeys.accepted.1 hok)) front back hsplit hok

end Crypto

/-! ## A key that does not decode -/

/-- Primitives for which the key 2 does not decode: as the bytes of an Ed25519 key it is no point of
the curve. Every signature verifies under the key 1 and no other. -/
def curve : Crypto where
  sha256 _ := 0
  jcs _ := some []
  verifyingKey key := key ≠ 2
  decodeSignature _ := some []
  verifies key _ _ := key = 1

def signed : AllocationReceipt :=
  ⟨⟨wireVersion, 6, "abcdefghijklmnopqrstuvwxyz.relay.bloom.directory", "relay-test", .pendingDns⟩, 5,
    sha256Hex curve (beBytes 32 (4 : Bytes32)), 1000000, ""⟩

/-- The receipt is signed with a pinned key and refused, since a key in front of it does not decode;
with the two keys in the other order it is accepted. -/
theorem undecodable_pin_hides_signer :
    Accepts curve (fun _ _ _ _ => some []) signed 5 4 1000000 1 ∧
      signed.verifyBytes curve (fun _ _ _ _ => some []) [2, 1] 5 4 1000000 =
        .error .invalidSignature ∧
      signed.verifyBytes curve (fun _ _ _ _ => some []) [1, 2] 5 4 1000000 = .ok () ∧
      ¬ PinsFormSet curve (fun _ _ _ _ => some []) signed 5 4 1000000 [2, 1] 1 := by
  have haccepts : Accepts curve (fun _ _ _ _ => some []) signed 5 4 1000000 1 := by
    unfold Accepts
    decide +kernel
  have hrefused : signed.verifyBytes curve (fun _ _ _ _ => some []) [2, 1] 5 4 1000000 =
      .error .invalidSignature := verifyBytes_cons_undecodable (by decide) [1]
  refine ⟨haccepts, hrefused, ?_, fun h => ?_⟩
  · rw [verifyBytes_cons_settled haccepts.settles]
    exact haccepts.2
  · have hok := h.accepted.2 ⟨1, by decide, haccepts⟩
    rw [hrefused] at hok
    cases hok

end BloomRelay.Protocol.AllocationReceipt
