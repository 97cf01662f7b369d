import BloomRelay.Bridge.Proofs.LoopProofs

/-!
# A bridge copies bytes

What each end of a bridge has written is a prefix of what the other end's peer has sent, and all of it
when both loops return. The end of a stream is passed on once, after its last byte.
-/

namespace BloomRelay.Bridging

open Protocol

variable {s s' : Bridge} {side : Side} {a : LoopAction} {upWindow downWindow : Nat}
  {hello browser upstream : Bytes} {cb cu : Bool} {tr : List (Event Bridge (Side × LoopAction))}

/-! ## What happens once -/

/-- The end that a loop passes on with an action: of its socket to the stream, or of the stream to its
socket. -/
def End.passed (e : End) : LoopAction → Bool
  | .eof => e.readDone
  | .finish => e.recvDone
  | _ => false

theorem LoopMoves.passed {count : Nat → Nat → Nat} {l l' : Loop} {a b : LoopAction}
    (h : LoopMoves count l a l') (hb : l.this.passed b = true) : l'.this.passed b = true := by
  cases b with
  | eof => cases h <;> first | exact hb | rfl
  | finish => cases h <;> first | exact hb | rfl
  | _ => cases hb

/-- An end is passed on only if it was not before. -/
theorem LoopMoves.passes {count : Nat → Nat → Nat} {l l' : Loop} {a : LoopAction}
    (h : LoopMoves count l a l') (ha : a = .eof ∨ a = .finish) :
    l.this.passed a = false ∧ l'.this.passed a = true := by
  cases h with
  | eof hpc hopen => exact ⟨hopen, rfl⟩
  | finish hpc hopen => exact ⟨hopen, rfl⟩
  | _ => rcases ha with ha | ha <;> cases ha

theorem passed_step {a : Side × LoopAction} {b : LoopAction} (h : BridgeStep s a s')
    (hb : (s.loop side).this.passed b = true) : (s'.loop side).this.passed b = true := by
  obtain ⟨side', a⟩ := a
  obtain ⟨l, hm, rfl⟩ := bridgeStep_eq h
  cases side' <;> cases side <;> first | exact hm.passed hb | exact hb

/-- What a run has passed on stays passed on. -/
theorem passed_of_run (h : BridgeRun upWindow downWindow hello browser upstream cb cu tr s)
    (ha : a = .eof ∨ a = .finish) : ∀ e ∈ tr, e.label = (side, a) →
      (s.loop side).this.passed a = true := by
  refine h.invariant (fun tr s => ∀ e ∈ tr, e.label = (side, a) → (s.loop side).this.passed a = true)
    (fun _ he => absurd he List.not_mem_nil) ?_
  intro tr s label s' _ ih hs e he hl
  rcases List.mem_cons.mp he with rfl | he
  · obtain rfl : label = (side, a) := hl
    obtain ⟨l, hm, rfl⟩ := bridgeStep_eq hs
    have hpassed := (hm.passes ha).2
    cases side <;> exact hpassed
  · exact passed_step hs (ih e he hl)

theorem once_of_run (h : BridgeRun upWindow downWindow hello browser upstream cb cu tr s)
    (ha : a = .eof ∨ a = .finish) :
    tr.Pairwise fun e e' => e.label = (side, a) → e'.label ≠ (side, a) := by
  induction h with
  | refl => exact List.Pairwise.nil
  | @snoc tr s s' label hrun hs ih =>
    refine List.Pairwise.cons ?_ ih
    intro e he hl hl'
    obtain rfl : label = (side, a) := hl
    have hbefore := passed_of_run hrun ha e he hl'
    obtain ⟨l, hm, rfl⟩ := bridgeStep_eq hs
    rw [(hm.passes ha).1] at hbefore
    cases hbefore

/-! ## After the last byte -/

/-- What a loop has handed to the HTTP/2 stream. -/
def Bridge.sent (s : Bridge) : Side → Bytes
  | .gateway => s.client.written ++ s.client.writing ++ s.up.flow.queue
  | .client => s.gateway.written ++ s.gateway.writing ++ s.down.flow.queue

theorem LoopMoves.eof_all {count : Nat → Nat → Nat} {l l' : Loop} (h : LoopMoves count l .eof l') :
    l.this.sending = [] ∧ l.this.unread = [] := by
  cases h with
  | eof hpc hopen hunread => exact ⟨sending_of_idle hpc, hunread⟩

theorem LoopMoves.finish_all {count : Nat → Nat → Nat} {l l' : Loop}
    (h : LoopMoves count l .finish l') :
    l.inn.ended = true ∧ l.inn.flow.queue = [] ∧ l.this.writing = [] := by
  cases h with
  | finish hpc hopen hended hqueue => exact ⟨hended, hqueue, writing_of_idle hpc⟩

/-! ## Chunks -/

theorem sendLoop_one {count : Nat → Nat → Nat} {rest : Bytes} {capacity : Nat} (hrest : rest ≠ [])
    (hpos : 0 < capacity) :
    (sendLoop count rest [capacity]).1 = [rest.take (count capacity rest.length)] := by
  simp [sendLoop, hrest, hpos.ne']

/-- A round of the sending loop puts one chunk on the stream. -/
theorem chunk_of_send {capacity : Nat} (h : Carries upWindow downWindow browser upstream s)
    (hs : BridgeStep s (side, .send capacity) s') :
    ∃ chunk, (s'.loop side).out.flow.queue = (s.loop side).out.flow.queue ++ chunk ∧ chunk ≠ [] ∧
      chunk.length ≤ 16384 := by
  obtain ⟨l, hm, rfl⟩ := bridgeStep_eq hs
  cases hm with
  | send _ rest hpc hpos hwindow =>
    have hrest : rest ≠ [] := by
      cases side with
      | gateway => exact h.up.busy rest hpc
      | client => exact h.down.busy rest hpc
    have hchunk := sendLoop_chunks (chunked_count side) rest [capacity]
    rw [sendLoop_one hrest hpos] at hchunk
    refine ⟨rest.take (Bridge.count side capacity rest.length), ?_, hchunk _ List.mem_cons_self⟩
    cases side <;> rfl

/-! ## Transparency -/

/-- What a run does with what the browser and the upstream send. -/
structure Transparent (browser upstream : Bytes) (tr : List (Event Bridge (Side × LoopAction)))
    (s : Bridge) : Prop where
  to_upstream : s.client.written <+: browser
  to_browser : s.gateway.written <+: upstream
  /-- Each loop passes on each end at most once. -/
  ends_once : ∀ side a, a = .eof ∨ a = .finish →
    tr.Pairwise fun e e' => e.label = (side, a) → e'.label ≠ (side, a)
  /-- `END_STREAM` follows all bytes of its direction. -/
  ended_after : ∀ e ∈ tr, (e.label = (.gateway, .eof) → e.src.sent .gateway = browser) ∧
    (e.label = (.client, .eof) → e.src.sent .client = upstream)
  /-- A socket is shut down after all bytes of its direction. -/
  shut_after : ∀ e ∈ tr, (e.label = (.client, .finish) → e.src.client.written = browser) ∧
    (e.label = (.gateway, .finish) → e.src.gateway.written = upstream)
  chunks : ∀ e ∈ tr, ∀ side capacity, e.label = (side, .send capacity) →
    ∃ chunk, (e.dst.loop side).out.flow.queue = (e.src.loop side).out.flow.queue ++ chunk ∧
      chunk ≠ [] ∧ chunk.length ≤ 16384
  complete : s.gateway.finished = true → s.client.finished = true →
    s.client.written = browser ∧ s.gateway.written = upstream

/-- What the sending loop does, whatever capacities it finds: it sends the bytes in order in chunks that
are not empty and not too large, and all of them when enough capacity was granted. -/
def Sends (send : Bytes → List Nat → List Bytes × Bytes) : Prop :=
  ∀ bytes capacities, (send bytes capacities).1.flatten ++ (send bytes capacities).2 = bytes ∧
    (∀ chunk ∈ (send bytes capacities).1, chunk ≠ [] ∧ chunk.length ≤ 16384) ∧
    (bytes.length ≤ (capacities.map (min · 16384)).sum → (send bytes capacities).2 = [])

theorem sends_sendLoop (side : Side) : Sends (sendLoop (Bridge.count side)) := fun bytes capacities =>
  ⟨sendLoop_flatten bytes capacities, sendLoop_chunks (chunked_count side) bytes capacities,
    sendLoop_done (chunked_count side) bytes capacities⟩

theorem recvDone_of_finished {e : End} (h : e.finished = true) : e.recvDone = true :=
  (of_decide_eq_true h).2.2.1

theorem transparent_of_run (h : BridgeRun upWindow downWindow hello browser upstream cb cu tr s) :
    Transparent (hello ++ browser) upstream tr s := by
  have hc : Carries upWindow downWindow (hello ++ browser) upstream s := carries_of_run h
  -- the state before each step of the run
  have hbefore : ∀ e ∈ tr, Carries upWindow downWindow (hello ++ browser) upstream e.src ∧
      BridgeStep e.src e.label e.dst := by
    intro e he
    obtain ⟨later, earlier, rfl⟩ := List.append_of_mem he
    obtain ⟨hrun, hs, -⟩ := h.split
    exact ⟨carries_of_run hrun, hs⟩
  refine ⟨hc.up.written_prefix, hc.down.written_prefix, fun side a ha => once_of_run h ha, ?_, ?_, ?_, ?_⟩
  · rintro ⟨src, label, dst⟩ he
    obtain ⟨hsrc, hs⟩ := hbefore _ he
    constructor
    · rintro rfl
      obtain ⟨l, hm, -⟩ := bridgeStep_eq hs
      obtain ⟨hsending, hunread⟩ := hm.eof_all
      exact hsrc.up.all_sent hsending hunread
    · rintro rfl
      obtain ⟨l, hm, -⟩ := bridgeStep_eq hs
      obtain ⟨hsending, hunread⟩ := hm.eof_all
      exact hsrc.down.all_sent hsending hunread
  · rintro ⟨src, label, dst⟩ he
    obtain ⟨hsrc, hs⟩ := hbefore _ he
    constructor
    · rintro rfl
      obtain ⟨l, hm, -⟩ := bridgeStep_eq hs
      obtain ⟨hended, hqueue, hwriting⟩ := hm.finish_all
      exact hsrc.up.all_written hended hqueue hwriting
    · rintro rfl
      obtain ⟨l, hm, -⟩ := bridgeStep_eq hs
      obtain ⟨hended, hqueue, hwriting⟩ := hm.finish_all
      exact hsrc.down.all_written hended hqueue hwriting
  · rintro ⟨src, label, dst⟩ he side capacity rfl
    obtain ⟨hsrc, hs⟩ := hbefore _ he
    exact chunk_of_send hsrc hs
  · intro hgateway hclient
    obtain ⟨hended, hqueue, hwriting⟩ := hc.up.received (recvDone_of_finished hclient)
    obtain ⟨hended', hqueue', hwriting'⟩ := hc.down.received (recvDone_of_finished hgateway)
    exact ⟨hc.up.all_written hended hqueue hwriting, hc.down.all_written hended' hqueue' hwriting'⟩

/-- Byte transparency: for every way `read_sni` reads the start of what the browser sends, and every run
of the two loops after it. -/
theorem bytes_transparent {accept : List Bytes → Hello} {chunks rest : List Bytes} {host : String}
    (hsni : readSni accept [] chunks = .ok (host, hello, rest))
    (h : BridgeRun upWindow downWindow hello rest.flatten upstream cb cu tr s) :
    Transparent chunks.flatten upstream tr s ∧ Sends sendData ∧ Sends sendBounded := by
  obtain ⟨hbytes, -, -⟩ := readSni_ok hsni
  rw [List.flatten_nil, List.nil_append] at hbytes
  refine ⟨?_, sends_sendLoop .gateway, sends_sendLoop .client⟩
  rw [← hbytes]
  exact transparent_of_run h

/-- An acceptor that has the host after three bytes. -/
def shortHello (seen : List Bytes) : Hello :=
  if seen.flatten.length < 3 then .incomplete
  else .complete (some "aaaaaaaaaaaaaaaaaaaaaaaabe.relay.bloom.directory")

/-- Four bytes up, two down, through windows of two bytes, until both loops return. -/
def shortExchange : List (Side × LoopAction) :=
  [(.gateway, .send 2), (.client, .receive 2), (.client, .write 2), (.gateway, .send 1),
    (.gateway, .read 1), (.gateway, .send 1), (.gateway, .eof),
    (.client, .receive 2), (.client, .write 1), (.client, .write 1),
    (.client, .read 2), (.client, .send 2), (.gateway, .receive 2), (.gateway, .write 2),
    (.client, .eof), (.client, .receive 0), (.client, .write 0), (.client, .finish), (.gateway, .finish)]

theorem bytes_transparent_exchanged :
    ∃ tr s, BridgeRun 2 2 [22, 3, 1] [5] [7, 8] true true tr s ∧
      s.gateway.finished = true ∧ s.client.finished = true ∧
      s.client.written = [22, 3, 1, 5] ∧ s.gateway.written = [7, 8] ∧
      Transparent [22, 3, 1, 5] [7, 8] tr s := by
  have hsni : readSni shortHello [] [[22], [3, 1], [5]] =
      .ok ("aaaaaaaaaaaaaaaaaaaaaaaabe.relay.bloom.directory", [22, 3, 1], [[5]]) := by decide +kernel
  have hplay : (Run.play Bridge.step (.start 2 2 [22, 3, 1] [5] [7, 8] true true) shortExchange).any
      (fun s => s.gateway.finished ∧ s.client.finished) = true := by decide +kernel
  obtain ⟨s, hs, hfinished⟩ := (Option.any_eq_true _ _).mp hplay
  obtain ⟨hgateway, hclient⟩ := of_decide_eq_true hfinished
  obtain ⟨tr, hrun, -⟩ := Run.of_play hs
  obtain ⟨htransparent, -⟩ := bytes_transparent hsni hrun
  obtain ⟨hup, hdown⟩ := htransparent.complete hgateway hclient
  exact ⟨tr, s, hrun, hgateway, hclient, hup, hdown, htransparent⟩

end BloomRelay.Bridging
