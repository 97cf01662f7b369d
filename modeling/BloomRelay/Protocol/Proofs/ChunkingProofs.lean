import BloomRelay.Protocol.Proofs.ControlDecoderProofs

/-!
# Chunks of any sizes

The bytes of a control stream may arrive in any parts. Within the limit the decoder does not see the
parts: whether it succeeds, what it gives and what it keeps depend on the bytes alone.
-/

namespace BloomRelay.Protocol.ControlDecoder

variable {codec : EventCodec} {events : List TunnelEvent} {pending bytes chunk : Bytes}
  {chunks : List Bytes} {decoder : ControlDecoder}

/-- Bytes that are within the limit at once are within it in any parts. -/
theorem withinLimit_of_length (h : pending.length + chunks.flatten.length ≤ maxControlBody) :
    WithinLimit pending chunks := by
  induction chunks generalizing pending with
  | nil => trivial
  | cons chunk chunks ih =>
    have hopen := length_unterminated_le (pending ++ chunk)
    rw [List.length_append] at hopen
    rw [List.flatten_cons, List.length_append] at h
    exact ⟨by omega, ih (by omega)⟩

theorem pushEach_iff_push (hpending : newline ∉ pending)
    (hlimit : pending.length + bytes.length ≤ maxControlBody) (hbytes : chunks.flatten = bytes)
    {out : List TunnelEvent} {last : ControlDecoder} :
    pushEach codec ⟨pending⟩ chunks = (.ok out, last) ↔
      push codec ⟨pending⟩ bytes = (.ok out, last) := by
  subst hbytes
  rw [pushEach_eq_ok_iff hpending, push_eq_ok_iff, and_iff_right (withinLimit_of_length hlimit),
    and_iff_right hlimit]

/-! ## What stays in the decoder -/

/-- The loop takes bytes out; its only error is a line that is no event. -/
theorem takeEvents_frame (codec : EventCodec) (pending : Bytes) (events : List TunnelEvent) :
    (takeEvents codec pending events).2.pending.length ≤ pending.length ∧
      (takeEvents codec pending events).1 ≠ .error .tooLarge := by
  fun_induction takeEvents codec pending events with
  | case1 pending events hnone => exact ⟨le_rfl, fun h => by cases h⟩
  | case2 pending events stop hstop line rest hevent =>
    refine ⟨?_, fun h => by cases h⟩
    rw [List.length_drop]
    omega
  | case3 pending events stop hstop line rest event hevent ih =>
    obtain ⟨hlength, herror⟩ := ih
    rw [List.length_drop] at hlength
    exact ⟨by omega, herror⟩

theorem push_length (h : decoder.pending.length ≤ maxControlBody) (chunk : Bytes) :
    (decoder.push codec chunk).2.pending.length ≤ maxControlBody := by
  unfold push
  split_ifs with hlimit
  · exact h
  · have hframe := (takeEvents_frame codec (decoder.pending ++ chunk) []).1
    rw [List.length_append] at hframe
    omega

theorem push_tooLarge (h : (decoder.push codec chunk).1 = .error .tooLarge) :
    (decoder.push codec chunk).2 = decoder := by
  unfold push at h ⊢
  split_ifs at h ⊢ with hlimit
  · rfl
  · exact absurd h (takeEvents_frame codec _ _).2

theorem afterPushes_length (codec : EventCodec) (h : decoder.pending.length ≤ maxControlBody)
    (chunks : List Bytes) : (decoder.afterPushes codec chunks).pending.length ≤ maxControlBody := by
  induction chunks generalizing decoder with
  | nil => exact h
  | cons chunk chunks ih => exact ih (push_length h chunk)

/-- **Chunking independence.** Within the limit, pushing some bytes in any parts succeeds exactly if
pushing them at once does; then the events and the bytes that stay pending are the same: the events of
the lines, one for each and in their order, and what follows the last newline. Whatever was pushed
before, the pending bytes are within the limit, and a push that is too large changes nothing. -/
theorem chunking_independent (hpending : newline ∉ pending)
    (hlimit : pending.length + bytes.length ≤ maxControlBody) (hbytes : chunks.flatten = bytes) :
    ((∃ out last, pushEach codec ⟨pending⟩ chunks = (.ok out, last)) ↔
      ∃ out last, push codec ⟨pending⟩ bytes = (.ok out, last)) ∧
    (∀ out last out' last', pushEach codec ⟨pending⟩ chunks = (.ok out, last) →
      push codec ⟨pending⟩ bytes = (.ok out', last') → out = out' ∧ last = last' ∧
        ∃ lines, pending ++ bytes = (lines.flatMap fun line => line ++ [newline]) ++ last.pending ∧
          (∀ line ∈ lines, newline ∉ line) ∧ newline ∉ last.pending ∧ Decodes codec lines out) ∧
    ∀ pushed, (default.afterPushes codec pushed).pending.length ≤ maxControlBody ∧
      ∀ chunk, ((default.afterPushes codec pushed).push codec chunk).1 = .error .tooLarge →
        ((default.afterPushes codec pushed).push codec chunk).2 = default.afterPushes codec pushed := by
  have hsame : ∀ out last, pushEach codec ⟨pending⟩ chunks = (.ok out, last) ↔
      push codec ⟨pending⟩ bytes = (.ok out, last) := fun out last =>
    pushEach_iff_push hpending hlimit hbytes
  refine ⟨exists_congr fun out => exists_congr fun last => hsame out last, ?_, fun pushed => ⟨?_, ?_⟩⟩
  · intro out last out' last' heach hpush
    have hboth := ((hsame out last).mp heach).symm.trans hpush
    obtain ⟨hout, hlast⟩ := Prod.mk.inj hboth
    obtain ⟨-, hlines, hrest⟩ := push_eq_ok_iff.mp ((hsame out last).mp heach)
    have hpending' : last.pending = unterminated (pending ++ bytes) := by rw [hrest]
    refine ⟨Except.ok.inj hout, hlast, (Lines.split newline (pending ++ bytes)).1, ?_, ?_, ?_, hlines⟩
    · rw [hpending']
      exact (Lines.flatMap_split _).symm
    · exact Lines.not_mem_line _
    · rw [hpending']
      exact Lines.not_mem_rest _
  · exact afterPushes_length codec (Nat.zero_le _) pushed
  · exact fun chunk => push_tooLarge

/-- A heartbeat behind some pending bytes of it, cut in three with an empty part. -/
theorem chunking_independent_heartbeat :
    pushEach heartbeatCodec ⟨heartbeatLine.take 4⟩
        [heartbeatLine.drop 4, [], [newline]] = (.ok [.heartbeat 1 3], ⟨[]⟩) ∧
      push heartbeatCodec ⟨heartbeatLine.take 4⟩ (heartbeatLine.drop 4 ++ [newline]) =
        (.ok [.heartbeat 1 3], ⟨[]⟩) := by
  have hpending : newline ∉ heartbeatLine.take 4 := by decide +kernel
  have hlimit : (heartbeatLine.take 4).length + (heartbeatLine.drop 4 ++ [newline]).length ≤
      maxControlBody := by decide +kernel
  have hline : newline ∉ heartbeatLine := by decide +kernel
  have hpush : push heartbeatCodec ⟨heartbeatLine.take 4⟩ (heartbeatLine.drop 4 ++ [newline]) =
      (.ok [.heartbeat 1 3], ⟨[]⟩) := by
    have hbytes : heartbeatLine.take 4 ++ (heartbeatLine.drop 4 ++ [newline]) =
        heartbeatLine ++ newline :: [] := by
      rw [← List.append_assoc, List.take_append_drop]
    have hevent : heartbeatCodec.fromSlice heartbeatLine = some (.heartbeat 1 3) := by
      simp only [heartbeatCodec, if_true]
    refine push_eq_ok_iff.mpr ⟨hlimit, ?_, ?_⟩
    · rw [hbytes, Lines.split_line hline]
      exact .cons hevent .nil
    · rw [hbytes, unterminated, Lines.split_line hline]
      rfl
  have hchunks : [heartbeatLine.drop 4, [], [newline]].flatten = heartbeatLine.drop 4 ++ [newline] :=
    rfl
  obtain ⟨hiff, hsame, -⟩ := @chunking_independent heartbeatCodec _ _ _ hpending hlimit hchunks
  obtain ⟨out, last, heach⟩ := hiff.mpr ⟨_, _, hpush⟩
  obtain ⟨rfl, rfl, -⟩ := hsame _ _ _ _ heach hpush
  exact ⟨heach, hpush⟩

end BloomRelay.Protocol.ControlDecoder
