import BloomRelay.Protocol.Basic

/-!
# Byte encodings

The encodings that digests are taken of lose nothing.
-/

namespace BloomRelay.Protocol

@[simp] theorem beBytes_length {w : Nat} (n : Nat) (v : BitVec w) : (beBytes n v).length = n := by
  simp [beBytes]

/-- The byte of weight `256 ^ k`. -/
theorem beBytes_byte {w n : Nat} {v v' : BitVec w} (h : beBytes n v = beBytes n v') {k : Nat}
    (hk : k < n) : v.toNat >>> (8 * k) % 2 ^ 8 = v'.toNat >>> (8 * k) % 2 ^ 8 := by
  have hmem : n - 1 - k ∈ List.range n := List.mem_range.mpr (by omega)
  have hbyte := List.map_inj_left.mp h (n - 1 - k) hmem
  have hk' : n - 1 - (n - 1 - k) = k := by omega
  rw [hk'] at hbyte
  simpa using congrArg UInt8.toNat hbyte

/-- Enough bytes determine the value. -/
theorem beBytes_inj {w n : Nat} (hw : w ≤ 8 * n) {v v' : BitVec w}
    (h : beBytes n v = beBytes n v') : v = v' := by
  apply BitVec.eq_of_toNat_eq
  apply Nat.eq_of_testBit_eq
  intro j
  by_cases hj : j < w
  · have hbyte := beBytes_byte h (show j / 8 < n by omega)
    have hbit := congrArg (fun x => Nat.testBit x (j % 8)) hbyte
    have hsum : 8 * (j / 8) + j % 8 = j := Nat.div_add_mod j 8
    have hlt : j % 8 < 8 := Nat.mod_lt _ (by decide)
    simpa only [Nat.testBit_mod_two_pow, Nat.testBit_shiftRight, hsum, hlt, decide_true,
      Bool.true_and] using hbit
  · have hbound : 2 ^ w ≤ 2 ^ j := Nat.pow_le_pow_right (by decide) (by omega)
    rw [Nat.testBit_lt_two_pow (v.isLt.trans_le hbound),
      Nat.testBit_lt_two_pow (v'.isLt.trans_le hbound)]

theorem utf8_inj {s t : String} (h : utf8 s = utf8 t) : s = t := by
  unfold utf8 at h
  have hdata : s.toUTF8.data = t.toUTF8.data := Array.toList_inj.mp h
  have hbytes : s.toUTF8 = t.toUTF8 := ByteArray.ext hdata
  exact String.toByteArray_inj.mp hbytes

end BloomRelay.Protocol
