import BloomRelay.Control.ClientAddr
import BloomRelay.Protocol.Proofs.ByteProofs

/-!
# Reading PROXY headers

The reader accepts a stream exactly if it starts with a header of the grammar `Header`, takes that
header and nothing behind it, and names the address that was encoded.
-/

namespace BloomRelay.ClientAddr

open Protocol Store

variable {verCmd family high low : UInt8} {body rest stream : Bytes} {addr : Option SocketAddr}

/-! ## Numbers in bytes -/

theorem ofBeBytes_concat (bytes : Bytes) (b : UInt8) :
    ofBeBytes (bytes ++ [b]) = ofBeBytes bytes * 256 + b.toNat := by
  unfold ofBeBytes
  rw [List.foldl_append]
  rfl

theorem beBytes_succ {w : Nat} (n : Nat) (v : BitVec w) :
    beBytes (n + 1) v = beBytes n (v >>> 8) ++ [UInt8.ofNat v.toNat] := by
  unfold beBytes
  rw [List.range_succ, List.map_append, List.map_singleton]
  congr 1
  · refine List.map_congr_left fun i hi => ?_
    have hlt := List.mem_range.mp hi
    have hshift : 8 * (n + 1 - 1 - i) = 8 + 8 * (n - 1 - i) := by omega
    rw [hshift, Nat.shiftRight_add, BitVec.toNat_ushiftRight]
  · rw [Nat.add_sub_cancel, Nat.sub_self, Nat.mul_zero, Nat.shiftRight_zero]

theorem ofBeBytes_beBytes {w : Nat} (n : Nat) (v : BitVec w) :
    ofBeBytes (beBytes n v) = v.toNat % 256 ^ n := by
  induction n generalizing v with
  | zero =>
    rw [pow_zero, Nat.mod_one]
    rfl
  | succ n ih =>
    have hbyte : (UInt8.ofNat v.toNat).toNat = v.toNat % 256 := UInt8.toNat_ofNat' ..
    have hshift : (v >>> 8).toNat = v.toNat / 256 := by
      rw [BitVec.toNat_ushiftRight, Nat.shiftRight_eq_div_pow]
    rw [beBytes_succ, ofBeBytes_concat, ih, hbyte, hshift, pow_succ, Nat.mul_comm (256 ^ n) 256,
      Nat.mod_mul]
    omega

/-- A number of whole bytes is its bytes. -/
theorem ofNat_ofBeBytes {w n : Nat} (hw : w = 8 * n) (v : BitVec w) :
    BitVec.ofNat w (ofBeBytes (beBytes n v)) = v := by
  have hlt : v.toNat < 256 ^ n := by
    have hpow : 2 ^ w = 256 ^ n := by
      rw [hw, Nat.pow_mul]
    exact hpow ▸ v.isLt
  rw [ofBeBytes_beBytes, Nat.mod_eq_of_lt hlt, BitVec.ofNat_toNat, BitVec.setWidth_eq]

/-! ## The grammar -/

/-- A header up to its body. -/
def frame (verCmd family high low : UInt8) (body : Bytes) : Bytes :=
  signature ++ verCmd :: family :: high :: low :: body

/-- The headers of the grammar: version 2, the length of the body, and a command that is `LOCAL`, or
`PROXY` with an address block of TCP over IPv4 or IPv6. -/
structure Header (verCmd family high low : UInt8) (body : Bytes) : Prop where
  version : verCmd >>> 4 = 2
  length : body.length = ofBeBytes [high, low]
  bound : body.length ≤ maxBody
  command : verCmd &&& 0x0f = 0 ∨ verCmd &&& 0x0f = 1 ∧
    (family = 0x11 ∧ 12 ≤ body.length ∨ family = 0x21 ∧ 36 ≤ body.length)

/-- The address that a header of the grammar names. -/
def named (verCmd family : UInt8) (body : Bytes) : Option SocketAddr :=
  if verCmd &&& 0x0f = 0 then none
  else if family = 0x11 then tcp4 body
  else tcp6 body

theorem exists_byte {n i : Nat} (h : n ≤ body.length) (hi : i < n) : ∃ b, body[i]? = some b :=
  ⟨_, List.getElem?_eq_getElem (hi.trans_le h)⟩

theorem tcp4_eq_some (h : 12 ≤ body.length) : ∃ addr, tcp4 body = some addr := by
  obtain ⟨a, ha⟩ := exists_byte h (show 0 < 12 by omega)
  obtain ⟨b, hb⟩ := exists_byte h (show 1 < 12 by omega)
  obtain ⟨c, hc⟩ := exists_byte h (show 2 < 12 by omega)
  obtain ⟨d, hd⟩ := exists_byte h (show 3 < 12 by omega)
  obtain ⟨high, hhigh⟩ := exists_byte h (show 8 < 12 by omega)
  obtain ⟨low, hlow⟩ := exists_byte h (show 9 < 12 by omega)
  unfold tcp4
  rw [ha, hb, hc, hd, hhigh, hlow]
  exact ⟨_, rfl⟩

theorem tcp6_eq_some (h : 36 ≤ body.length) : ∃ addr, tcp6 body = some addr := by
  obtain ⟨high, hhigh⟩ := exists_byte h (show 32 < 36 by omega)
  obtain ⟨low, hlow⟩ := exists_byte h (show 33 < 36 by omega)
  have hlong : ¬ body.length < 16 := by omega
  unfold tcp6
  rw [if_neg hlong, hhigh, hlow]
  exact ⟨_, rfl⟩

/-- What `parse` does once the length of the body is right. -/
def parseBody (verCmd family : UInt8) (body : Bytes) : Option (Except IoError (Option SocketAddr)) :=
  if verCmd >>> 4 ≠ 2 then some (invalid "unsupported PROXY protocol version")
  else if verCmd &&& 0x0f = 0 then some (.ok none)
  else if verCmd &&& 0x0f ≠ 1 then some (invalid "unsupported PROXY v2 command")
  else if family = 0x11 ∧ body.length ≥ 12 then (tcp4 body).map fun addr => .ok (some addr)
  else if family = 0x21 ∧ body.length ≥ 36 then (tcp6 body).map fun addr => .ok (some addr)
  else some (invalid "PROXY v2 header is not TCP over IPv4 or IPv6")

/-- The first 16 bytes of a header. -/
def headOf (verCmd family high low : UInt8) : Vector UInt8 16 :=
  ⟨(signature ++ [verCmd, family, high, low]).toArray, rfl⟩

theorem bodyLength_headOf (verCmd family high low : UInt8) :
    bodyLength (headOf verCmd family high low) =
      if ofBeBytes [high, low] > maxBody then invalid "PROXY v2 header too long"
      else .ok (ofBeBytes [high, low]) :=
  if_neg fun h => h rfl

theorem parse_headOf (h : bodyLength (headOf verCmd family high low) = .ok body.length) :
    parse (headOf verCmd family high low) body = parseBody verCmd family body := by
  unfold parse
  simp only [h]
  exact if_neg fun hne => hne rfl

/-- The reader on a stream that starts with the signature. -/
theorem readProxyV2_frame (verCmd family high low : UInt8) (rest : Bytes) :
    readProxyV2 (frame verCmd family high low rest) =
      if ofBeBytes [high, low] > maxBody then some (invalid "PROXY v2 header too long")
      else if ofBeBytes [high, low] ≤ rest.length then
        (parseBody verCmd family (rest.take (ofBeBytes [high, low]))).map fun result =>
          result.map fun addr => (addr, rest.drop (ofBeBytes [high, low]))
      else some (.error .unexpectedEof) := by
  have hhead : readHead (frame verCmd family high low rest) =
      .ok (headOf verCmd family high low, rest) := by
    have hlong : 16 ≤ (frame verCmd family high low rest).length := by
      show 16 ≤ rest.length + 1 + 1 + 1 + 1 + 1 + 1 + 1 + 1 + 1 + 1 + 1 + 1 + 1 + 1 + 1 + 1
      omega
    unfold readHead
    rw [dif_pos hlong]
    rfl
  unfold readProxyV2
  simp only [hhead, bodyLength_headOf]
  by_cases hlong : ofBeBytes [high, low] > maxBody
  · simp only [if_pos hlong]
    rfl
  · simp only [if_neg hlong, readBody]
    by_cases henough : ofBeBytes [high, low] ≤ rest.length
    · have hlength : (rest.take (ofBeBytes [high, low])).length = ofBeBytes [high, low] := by
        rw [List.length_take]
        omega
      simp only [if_pos henough]
      rw [parse_headOf]
      rw [bodyLength_headOf, if_neg hlong, hlength]
    · simp only [if_neg henough]

/-- Any other stream is an error. -/
theorem readProxyV2_other (h : ∀ verCmd family high low rest,
    stream ≠ frame verCmd family high low rest) : ∃ e, readProxyV2 stream = some (.error e) := by
  unfold readProxyV2
  by_cases hlong : 16 ≤ stream.length
  · have hsignature : stream.take 12 ≠ signature := by
      intro htake
      have hsplit := List.take_append_drop 12 stream
      have hdrop : (stream.drop 12).length = stream.length - 12 := List.length_drop ..
      rw [htake] at hsplit
      match hrest : stream.drop 12 with
      | verCmd :: family :: high :: low :: rest =>
        exact h verCmd family high low rest (by rw [← hsplit, hrest]; rfl)
      | [] | [_] | [_, _] | [_, _, _] =>
        rw [hrest] at hdrop
        simp only [List.length_cons, List.length_nil] at hdrop
        omega
    have hhead : ∃ head rest, readHead stream = .ok (head, rest) ∧ head.toList = stream.take 16 := by
      unfold readHead
      rw [dif_pos hlong]
      exact ⟨_, _, rfl, rfl⟩
    obtain ⟨head, rest, hread, htake⟩ := hhead
    have htwelve : head.toList.take 12 ≠ signature := by
      rw [htake, List.take_take]
      exact hsignature
    have hlength : bodyLength head = invalid "connection did not start with a PROXY v2 header" :=
      if_pos htwelve
    simp only [hread, hlength]
    exact ⟨_, rfl⟩
  · have hread : readHead stream = .error .unexpectedEof := dif_neg hlong
    simp only [hread]
    exact ⟨_, rfl⟩

/-! ## What is accepted -/

theorem map_ok_eq_some {α : Type} {o : Option α} (h : ∃ a, o = some a) {addr : Option α} :
    (o.map fun a => (Except.ok (some a) : Except IoError (Option α))) = some (.ok addr) ↔ addr = o := by
  obtain ⟨a, rfl⟩ := h
  rw [Option.map_some, Option.some.injEq, Except.ok.injEq, eq_comm]

/-- An address block is long enough for the bytes that are taken from it. -/
theorem parseBody_ne_none (verCmd family : UInt8) (body : Bytes) :
    parseBody verCmd family body ≠ none := by
  unfold parseBody
  split_ifs with _ _ _ h4 h6
  · exact Option.some_ne_none _
  · exact Option.some_ne_none _
  · exact Option.some_ne_none _
  · obtain ⟨addr, haddr⟩ := tcp4_eq_some h4.2
    rw [haddr]
    exact Option.some_ne_none _
  · obtain ⟨addr, haddr⟩ := tcp6_eq_some h6.2
    rw [haddr]
    exact Option.some_ne_none _
  · exact Option.some_ne_none _

theorem parseBody_eq_ok : parseBody verCmd family body = some (.ok addr) ↔
    (verCmd >>> 4 = 2 ∧ (verCmd &&& 0x0f = 0 ∨ verCmd &&& 0x0f = 1 ∧
      (family = 0x11 ∧ 12 ≤ body.length ∨ family = 0x21 ∧ 36 ≤ body.length))) ∧
    addr = named verCmd family body := by
  have hrefused : ∀ message : String, (some (invalid message) : Option (Except IoError _)) =
      some (.ok addr) → False := fun message h => by cases h
  have hfamilies : ¬ (0x21 : UInt8) = 0x11 := by decide
  unfold parseBody named
  by_cases hversion : verCmd >>> 4 = 2
  · rw [if_neg (not_not.mpr hversion), and_iff_right hversion]
    by_cases hlocal : verCmd &&& 0x0f = 0
    · rw [if_pos hlocal, if_pos hlocal, and_iff_right (Or.inl hlocal), Option.some.injEq,
        Except.ok.injEq, eq_comm]
    · rw [if_neg hlocal, if_neg hlocal, or_iff_right hlocal]
      by_cases hproxy : verCmd &&& 0x0f = 1
      · rw [if_neg (not_not.mpr hproxy), and_iff_right hproxy]
        by_cases h4 : family = 0x11 ∧ body.length ≥ 12
        · rw [if_pos h4, if_pos h4.1, map_ok_eq_some (tcp4_eq_some h4.2), and_iff_right (Or.inl h4)]
        · by_cases h6 : family = 0x21 ∧ body.length ≥ 36
          · rw [if_neg h4, if_pos h6, if_neg (h6.1 ▸ hfamilies), map_ok_eq_some (tcp6_eq_some h6.2),
              and_iff_right (Or.inr h6)]
          · rw [if_neg h4, if_neg h6]
            exact ⟨fun h => (hrefused _ h).elim, fun h => (h.1.elim h4 h6).elim⟩
      · rw [if_pos hproxy]
        exact ⟨fun h => (hrefused _ h).elim, fun h => absurd h.1.1 hproxy⟩
  · rw [if_pos hversion]
    exact ⟨fun h => (hrefused _ h).elim, fun h => absurd h.1.1 hversion⟩

theorem readProxyV2_ne_none (stream : Bytes) : readProxyV2 stream ≠ none := by
  by_cases h : ∃ verCmd family high low rest, stream = frame verCmd family high low rest
  · obtain ⟨verCmd, family, high, low, rest, rfl⟩ := h
    rw [readProxyV2_frame]
    split_ifs
    · exact Option.some_ne_none _
    · rw [ne_eq, Option.map_eq_none_iff]
      exact parseBody_ne_none _ _ _
    · exact Option.some_ne_none _
  · have hother : ∀ verCmd family high low rest, stream ≠ frame verCmd family high low rest :=
      fun verCmd family high low rest heq => h ⟨verCmd, family, high, low, rest, heq⟩
    obtain ⟨e, he⟩ := readProxyV2_other hother
    rw [he]
    exact Option.some_ne_none _

theorem map_result_eq_ok {α β : Type} {o : Option (Except IoError α)} {f : α → β} {b : β} :
    (o.map fun result => result.map f) = some (.ok b) ↔ ∃ a, o = some (.ok a) ∧ f a = b := by
  constructor
  · intro h
    obtain ⟨result, rfl, hresult⟩ := Option.map_eq_some_iff.mp h
    cases result with
    | error e => cases hresult
    | ok a => exact ⟨a, rfl, Except.ok.inj hresult⟩
  · rintro ⟨a, rfl, rfl⟩
    rfl

/-- The reader succeeds exactly on the headers of the grammar, and leaves what follows them. -/
theorem readProxyV2_eq_ok : readProxyV2 stream = some (.ok (addr, rest)) ↔
    ∃ verCmd family high low body, Header verCmd family high low body ∧
      stream = frame verCmd family high low (body ++ rest) ∧ addr = named verCmd family body := by
  constructor
  · intro hok
    by_cases h : ∃ verCmd family high low rest, stream = frame verCmd family high low rest
    · obtain ⟨verCmd, family, high, low, behind, rfl⟩ := h
      rw [readProxyV2_frame] at hok
      split_ifs at hok with hlong henough
      · cases hok
      · obtain ⟨addr', hparse, hpair⟩ := map_result_eq_ok.mp hok
        obtain ⟨rfl, rfl⟩ := Prod.mk.inj hpair
        obtain ⟨⟨hversion, hcommand⟩, rfl⟩ := parseBody_eq_ok.mp hparse
        have hlength : (behind.take (ofBeBytes [high, low])).length = ofBeBytes [high, low] := by
          rw [List.length_take]
          omega
        refine ⟨verCmd, family, high, low, behind.take (ofBeBytes [high, low]),
          ⟨hversion, hlength, by omega, hcommand⟩, ?_, rfl⟩
        rw [List.take_append_drop]
      · cases hok
    · have hother : ∀ verCmd family high low rest, stream ≠ frame verCmd family high low rest :=
        fun verCmd family high low rest heq => h ⟨verCmd, family, high, low, rest, heq⟩
      obtain ⟨e, he⟩ := readProxyV2_other hother
      rw [he] at hok
      cases hok
  · rintro ⟨verCmd, family, high, low, body, hheader, rfl, rfl⟩
    have hbound := hheader.bound
    rw [hheader.length] at hbound
    have henough : ofBeBytes [high, low] ≤ (body ++ rest).length := by
      rw [← hheader.length, List.length_append]
      exact Nat.le_add_right _ _
    rw [readProxyV2_frame, if_neg (Nat.not_lt.mpr hbound), if_pos henough, ← hheader.length,
      List.take_left, List.drop_left]
    exact map_result_eq_ok.mpr
      ⟨_, parseBody_eq_ok.mpr ⟨⟨hheader.version, hheader.command⟩, rfl⟩, rfl⟩

/-! ## Encoded addresses -/

/-- The body of a header for TCP: source and destination, their ports, and what follows them. -/
def tcpBody {w : Nat} (n : Nat) (source destination : BitVec w) (port destinationPort : BitVec 16)
    (tlvs : Bytes) : Bytes :=
  beBytes n source ++ beBytes n destination ++ beBytes 2 port ++ beBytes 2 destinationPort ++ tlvs

/-- A header for TCP; `family` is `0x11` for IPv4 and `0x21` for IPv6. -/
def tcpHeader (family : UInt8) (body : Bytes) : Bytes :=
  signature ++ 0x21 :: family :: (beBytes 2 (BitVec.ofNat 16 body.length) ++ body)

variable {port destinationPort : BitVec 16} {tlvs : Bytes}

theorem length_tcpBody {w : Nat} (n : Nat) (source destination : BitVec w) :
    (tcpBody n source destination port destinationPort tlvs).length = 2 * n + 4 + tlvs.length := by
  unfold tcpBody
  rw [List.length_append, List.length_append, List.length_append, List.length_append, beBytes_length,
    beBytes_length, beBytes_length, beBytes_length]
  omega

theorem tcp4_tcpBody (source destination : BitVec 32) :
    tcp4 (tcpBody 4 source destination port destinationPort tlvs) = some ⟨.v4 source, port⟩ := by
  have hbytes : tcp4 (tcpBody 4 source destination port destinationPort tlvs) =
      some ⟨.v4 (BitVec.ofNat 32 (ofBeBytes (beBytes 4 source))),
        BitVec.ofNat 16 (ofBeBytes (beBytes 2 port))⟩ := rfl
  rw [hbytes, ofNat_ofBeBytes (by decide), ofNat_ofBeBytes (by decide)]

theorem tcp6_tcpBody (source destination : BitVec 128) :
    tcp6 (tcpBody 16 source destination port destinationPort tlvs) =
      some ⟨toCanonical source, port⟩ := by
  have hlong : ¬ (tcpBody 16 source destination port destinationPort tlvs).length < 16 := by
    rw [length_tcpBody]
    omega
  have hbytes : tcp6 (tcpBody 16 source destination port destinationPort tlvs) =
      some ⟨toCanonical (BitVec.ofNat 128 (ofBeBytes (beBytes 16 source))),
        BitVec.ofNat 16 (ofBeBytes (beBytes 2 port))⟩ := by
    unfold tcp6
    rw [if_neg hlong]
    rfl
  rw [hbytes, ofNat_ofBeBytes (by decide), ofNat_ofBeBytes (by decide)]

/-- An encoded header with a body of the right length is read as it was written. -/
theorem readProxyV2_tcpHeader (hbound : body.length ≤ maxBody)
    (hfamily : family = 0x11 ∧ 12 ≤ body.length ∨ family = 0x21 ∧ 36 ≤ body.length) (rest : Bytes) :
    readProxyV2 (tcpHeader family body ++ rest) = some (.ok (named 0x21 family body, rest)) := by
  have hmax : maxBody = 512 := rfl
  have hlength : ofBeBytes (beBytes 2 (BitVec.ofNat 16 body.length)) = body.length := by
    rw [ofBeBytes_beBytes, BitVec.toNat_ofNat]
    omega
  refine readProxyV2_eq_ok.mpr ⟨0x21, family, _, _, body, ⟨rfl, hlength.symm, hbound, ?_⟩, ?_, rfl⟩
  · exact .inr ⟨rfl, hfamily⟩
  · unfold tcpHeader frame
    rw [List.append_assoc]
    rfl

theorem toCanonical_mapped (source : BitVec 32) :
    toCanonical ((0xffff : BitVec 96) ++ source) = .v4 source := by
  have hhigh : ((0xffff : BitVec 96) ++ source) >>> 32 = 0xffff := by
    apply BitVec.eq_of_toNat_eq
    rw [BitVec.toNat_ushiftRight, BitVec.toNat_append, Nat.shiftRight_or_distrib,
      Nat.shiftLeft_shiftRight, Nat.shiftRight_eq_div_pow, Nat.div_eq_of_lt source.isLt, Nat.or_zero]
    rfl
  unfold toCanonical
  rw [if_pos hhigh, BitVec.setWidth_append_eq_right]

/-- **PROXY headers.** No stream makes the reader panic. It succeeds exactly on a stream that starts
with a header of the grammar; then it has taken that header, 16 bytes and the declared length, and what
it gives does not depend on the bytes behind it. An encoded source address and port come back, an
IPv4-mapped IPv6 address as the IPv4 address. -/
theorem read_proxy_v2_exact :
    (∀ stream, readProxyV2 stream ≠ none) ∧
    (∀ stream, (∃ addr rest, readProxyV2 stream = some (.ok (addr, rest))) ↔
      ∃ verCmd family high low body rest, Header verCmd family high low body ∧
        stream = frame verCmd family high low (body ++ rest)) ∧
    (∀ stream addr rest, readProxyV2 stream = some (.ok (addr, rest)) →
      ∃ verCmd family high low body, stream = frame verCmd family high low body ++ rest ∧
        (frame verCmd family high low body).length = 16 + ofBeBytes [high, low] ∧
        (verCmd &&& 0x0f = 0 → addr = none) ∧
        ∀ rest', readProxyV2 (frame verCmd family high low body ++ rest') = some (.ok (addr, rest'))) ∧
    (∀ (source destination : BitVec 32) (port destinationPort : BitVec 16) (tlvs rest : Bytes),
      12 + tlvs.length ≤ maxBody →
      readProxyV2 (tcpHeader 0x11 (tcpBody 4 source destination port destinationPort tlvs) ++ rest) =
        some (.ok (some ⟨.v4 source, port⟩, rest))) ∧
    (∀ (source destination : BitVec 128) (port destinationPort : BitVec 16) (tlvs rest : Bytes),
      36 + tlvs.length ≤ maxBody →
      readProxyV2 (tcpHeader 0x21 (tcpBody 16 source destination port destinationPort tlvs) ++ rest) =
        some (.ok (some ⟨toCanonical source, port⟩, rest))) ∧
    (∀ source : BitVec 128, source >>> 32 ≠ 0xffff → toCanonical source = .v6 source) ∧
    ∀ source : BitVec 32, toCanonical ((0xffff : BitVec 96) ++ source) = .v4 source := by
  refine ⟨readProxyV2_ne_none, fun stream => ?_, fun stream addr rest hok => ?_,
    fun source destination port destinationPort tlvs rest hbound => ?_,
    fun source destination port destinationPort tlvs rest hbound => ?_,
    fun source hsource => if_neg hsource, toCanonical_mapped⟩
  · constructor
    · rintro ⟨addr, rest, hok⟩
      obtain ⟨verCmd, family, high, low, body, hheader, hstream, -⟩ := readProxyV2_eq_ok.mp hok
      exact ⟨verCmd, family, high, low, body, rest, hheader, hstream⟩
    · rintro ⟨verCmd, family, high, low, body, rest, hheader, hstream⟩
      exact ⟨_, rest, readProxyV2_eq_ok.mpr ⟨verCmd, family, high, low, body, hheader, hstream, rfl⟩⟩
  · obtain ⟨verCmd, family, high, low, body, hheader, rfl, rfl⟩ := readProxyV2_eq_ok.mp hok
    have hsplit : ∀ rest', frame verCmd family high low body ++ rest' =
        frame verCmd family high low (body ++ rest') := fun rest' => List.append_assoc _ _ _
    have hlength : (frame verCmd family high low body).length = 16 + ofBeBytes [high, low] := by
      rw [← hheader.length, Nat.add_comm]
      rfl
    refine ⟨verCmd, family, high, low, body, (hsplit rest).symm, hlength, fun hlocal => if_pos hlocal,
      fun rest' => ?_⟩
    exact readProxyV2_eq_ok.mpr ⟨verCmd, family, high, low, body, hheader, hsplit rest', rfl⟩
  · have hlength := @length_tcpBody port destinationPort tlvs 32 4 source destination
    rw [readProxyV2_tcpHeader (by omega) (.inl ⟨rfl, by omega⟩), ← tcp4_tcpBody]
    rfl
  · have hlength := @length_tcpBody port destinationPort tlvs 128 16 source destination
    rw [readProxyV2_tcpHeader (by omega) (.inr ⟨rfl, by omega⟩), ← tcp6_tcpBody]
    rfl

/-- The mapped address `::ffff:198.51.100.9`, and the start of a TLS record behind its header. -/
theorem read_proxy_v2_exact_mapped :
    readProxyV2 (tcpHeader 0x21 (tcpBody 16 ((0xffff : BitVec 96) ++ (0xC6336409 : BitVec 32)) 1
      443 18443 [4, 0, 0]) ++ [22, 3, 1]) = some (.ok (some ⟨.v4 0xC6336409, 443⟩, [22, 3, 1])) := by
  obtain ⟨-, -, -, -, hread, -, hmapped⟩ := read_proxy_v2_exact
  rw [hread _ _ _ _ _ _ (by decide), hmapped]

end BloomRelay.ClientAddr
