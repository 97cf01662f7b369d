import BloomRelay.Bridge.Proofs.TransparencyProofs

/-!
# What a stream keeps in memory

A loop reads from its socket only when it has sent what it read before, and gives credit back only when it
has written what it received. So the bytes of a stream that are between its two sockets are bounded by its
window and the buffer of one read, however slow a peer is.
-/

namespace BloomRelay.Bridging

open Protocol

variable {count : Nat → Nat → Nat} {l l' : Loop} {a : LoopAction} {limit upWindow downWindow : Nat}
  {hello upstream : Bytes} {cb cu : Bool} {tr : List (Event Bridge (Side × LoopAction))} {s : Bridge}

/-- A loop has at most `limit` bytes to send, and writes no more than it holds credit for. -/
structure Buffered (limit : Nat) (e : End) : Prop where
  sending : e.sending.length ≤ limit
  writing : e.writing.length ≤ e.holding

theorem buffered_of_rest {e : End} {rest : Bytes} (h : e.pc = if rest = [] then .idle else .sending rest)
    (hrest : rest.length ≤ limit) : Buffered limit e := by
  have hwriting : e.writing = [] := by
    unfold End.writing
    rw [h]
    split_ifs <;> rfl
  exact ⟨by rwa [sending_of_rest h], by rw [hwriting]; exact Nat.zero_le _⟩

theorem Buffered.step (hlimit : 16384 ≤ limit) (h : Buffered limit l.this)
    (hm : LoopMoves count l a l') : Buffered limit l'.this := by
  cases hm with
  | read n hpc hopen hpos hmax hlen =>
    refine ⟨?_, Nat.zero_le _⟩
    show (l.this.unread.take n).length ≤ limit
    rw [List.length_take]
    omega
  | send capacity rest hpc hpos hwindow =>
    refine buffered_of_rest rfl ?_
    have hsending := h.sending
    rw [sending_eq hpc] at hsending
    rw [List.length_drop]
    omega
  | receive n last hpc hopen hlen => exact ⟨Nat.zero_le _, List.length_take_le _ _⟩
  | written n rest size hpc => exact ⟨Nat.zero_le _, Nat.zero_le _⟩
  | write n rest size hpc =>
    refine ⟨Nat.zero_le _, ?_⟩
    show (rest.drop n).length ≤ size
    have hwriting := h.writing
    rw [writing_eq hpc, holding_eq hpc] at hwriting
    rw [List.length_drop]
    omega
  | eof | finish | fail => exact ⟨h.sending, h.writing⟩

theorem buffered_of_run (hhello : hello.length ≤ maxClientHello) {browser : Bytes}
    (h : BridgeRun upWindow downWindow hello browser upstream cb cu tr s) :
    Buffered maxClientHello s.gateway ∧ Buffered 16384 s.client := by
  refine h.state_invariant (fun s => Buffered maxClientHello s.gateway ∧ Buffered 16384 s.client)
    ⟨buffered_of_rest rfl hhello, Nat.zero_le _, Nat.zero_le _⟩ ?_
  rintro s ⟨side, a⟩ s' ⟨hgateway, hclient⟩ hs
  obtain ⟨l, hm, rfl⟩ := bridgeStep_eq hs
  cases side with
  | gateway => exact ⟨hgateway.step (by decide) hm, hclient⟩
  | client => exact ⟨hgateway, hclient.step le_rfl hm⟩

/-- The bytes between the two sockets. -/
theorem Direction.length_le {credit : Nat} {input : Bytes} {src dst : End} {p : Pipe}
    (h : Direction credit input src dst p) (hsending : src.sending.length ≤ limit)
    (hwriting : dst.writing.length ≤ dst.holding) :
    input.length ≤ dst.written.length + src.unread.length + (credit + limit) := by
  have hbytes := congrArg List.length h.bytes
  have hcredit := h.credit_eq
  have hheld := h.held
  simp only [List.length_append] at hbytes
  unfold CreditFlow.credit CreditFlow.outstanding at hcredit
  omega

/-- **Backpressure.** At every point of every run, at most a window and a ClientHello of what the browser
has sent, and at most a window and one read of what the upstream has sent, is neither still in the one
socket nor written to the other. -/
theorem buffers_bounded {accept : List Bytes → Hello} {chunks rest : List Bytes} {host : String}
    (hsni : readSni accept [] chunks = .ok (host, hello, rest))
    (h : BridgeRun upWindow downWindow hello rest.flatten upstream cb cu tr s) :
    chunks.flatten.length ≤
      s.client.written.length + s.gateway.unread.length + (upWindow + maxClientHello) ∧
    upstream.length ≤ s.gateway.written.length + s.client.unread.length + (downWindow + 16384) := by
  obtain ⟨hbytes, hhello, -⟩ := readSni_ok hsni
  rw [List.flatten_nil, List.nil_append] at hbytes
  obtain ⟨hgateway, hclient⟩ := buffered_of_run hhello h
  have hcarries := carries_of_run h
  rw [hbytes] at hcarries
  exact ⟨hcarries.up.length_le hgateway.sending hclient.writing,
    hcarries.down.length_le hclient.sending hgateway.writing⟩

/-- The upstream has taken two of the four bytes. -/
theorem buffers_bounded_waiting :
    ∃ tr s, BridgeRun 2 2 [22, 3, 1] [5] [7, 8] true true tr s ∧ s.client.written = [22, 3] ∧
      4 ≤ 2 + s.gateway.unread.length + (2 + maxClientHello) := by
  have hsni : readSni shortHello [] [[22], [3, 1], [5]] =
      .ok ("aaaaaaaaaaaaaaaaaaaaaaaabe.relay.bloom.directory", [22, 3, 1], [[5]]) := by decide +kernel
  have hplay : (Run.play Bridge.step (.start 2 2 [22, 3, 1] [5] [7, 8] true true)
      (shortExchange.take 3)).any (fun s => s.client.written = [22, 3]) = true := by decide +kernel
  obtain ⟨s, hs, hwritten⟩ := (Option.any_eq_true _ _).mp hplay
  have hwritten : s.client.written = [22, 3] := of_decide_eq_true hwritten
  obtain ⟨tr, hrun, -⟩ := Run.of_play hs
  have hbound := (buffers_bounded hsni hrun).1
  rw [hwritten] at hbound
  exact ⟨tr, s, hrun, hwritten, hbound⟩

end BloomRelay.Bridging
