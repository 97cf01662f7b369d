import BloomRelay.Control.Proofs.ClientAddrProofs
import BloomRelay.Protocol.Auth

/-!
# Tokens and hashes as text

What one side writes into a header or a body is what the other side reads there.
-/

namespace BloomRelay.Protocol

theorem stripPrefix?_append (pre s : String) : stripPrefix? pre (pre ++ s) = some s := by
  have hprefix : pre.toList.isPrefixOf (pre ++ s).toList = true := by
    rw [String.toList_append, List.isPrefixOf_iff_prefix]
    exact List.prefix_append _ _
  have hrest : (pre ++ s).toList.drop pre.toList.length = s.toList := by
    rw [String.toList_append, List.drop_left]
  rw [stripPrefix?, if_pos hprefix, hrest, String.ofList_toList]

/-- Each of the sixteen digits stands for its number. -/
theorem hexDigit?_hexDigit {n : Nat} (h : n < 16) : hexDigit? (hexDigit n) = some n := by
  have hall : ∀ n < 16, hexDigit? (hexDigit n) = some n := by decide
  exact hall n h

theorem hexDecode_hexEncode (bytes : Bytes) : hexDecode (hexEncode bytes).toList = some bytes := by
  unfold hexEncode
  rw [String.toList_ofList]
  induction bytes with
  | nil => rfl
  | cons b bytes ih =>
    have hlt : b.toNat < 256 := b.toNat_lt
    have hhigh : hexDigit? (hexDigit (b.toNat / 16)) = some (b.toNat / 16) :=
      hexDigit?_hexDigit (by omega)
    have hlow : hexDigit? (hexDigit (b.toNat % 16)) = some (b.toNat % 16) :=
      hexDigit?_hexDigit (by omega)
    have hbyte : UInt8.ofNat (16 * (b.toNat / 16) + b.toNat % 16) = b := by
      rw [Nat.div_add_mod]
      exact UInt8.ofNat_toNat
    rw [List.flatMap_cons, List.cons_append, List.cons_append, List.nil_append]
    simp only [hexDecode, hhigh, hlow, ih, hbyte]

theorem bytes32?_beBytes (hash : Bytes32) : bytes32? (beBytes 32 hash) = some hash := by
  have hfold : ∀ bytes : Bytes, bytes.foldl (fun n b => 256 * n + b.toNat) 0 =
      ClientAddr.ofBeBytes bytes := by
    intro bytes
    unfold ClientAddr.ofBeBytes
    simp only [Nat.mul_comm]
  have hvalue : BitVec.ofNat 256 (ClientAddr.ofBeBytes (beBytes 32 hash)) = hash :=
    ClientAddr.ofNat_ofBeBytes (n := 32) rfl hash
  rw [bytes32?, if_pos (beBytes_length 32 hash), hfold, hvalue]

/-- The other side reads the hash of a text that was sent as `sha256_hex`. -/
theorem bytes32?_sha256Hex (crypto : Crypto) (bytes : Bytes) :
    (hexDecode (sha256Hex crypto bytes).toList).bind bytes32? = some (crypto.sha256 bytes) := by
  unfold sha256Hex
  rw [hexDecode_hexEncode, Option.bind_some, bytes32?_beBytes]

end BloomRelay.Protocol
