import BloomRelay.Lib.Lines
import BloomRelay.Protocol.ControlDecoder
import Mathlib.Data.List.Forall2

/-!
# Decoding control events

`push` gives the events of the lines that end in its chunk and keeps what is left open. Over any chunks
the decoder succeeds exactly if every line is an event and, at every chunk, what is left open and the
chunk together are within the limit.
-/

namespace BloomRelay.Protocol

variable {codec : EventCodec} {events : List TunnelEvent} {pending chunk : Bytes}
  {chunks : List Bytes}

/-- What follows the last newline. -/
def unterminated (bytes : Bytes) : Bytes := (Lines.split newline bytes).2

namespace ControlDecoder

/-! ## One chunk -/

theorem takeEvents_open (h : newline ∉ pending) :
    takeEvents codec pending events = (.ok events, ⟨pending⟩) := by
  have hnone : pending.findIdx? (· == newline) = none := by
    refine List.findIdx?_eq_none_iff.mpr fun b hb => ?_
    exact beq_eq_false_iff_ne.mpr fun heq => h (heq ▸ hb)
  rw [takeEvents]
  split
  · rfl
  · rename_i stop hstop
    rw [hnone] at hstop
    cases hstop

theorem findIdx?_line {line : Bytes} (h : newline ∉ line) (rest : Bytes) :
    (line ++ newline :: rest).findIdx? (· == newline) = some line.length := by
  have hnone : line.findIdx? (· == newline) = none := by
    refine List.findIdx?_eq_none_iff.mpr fun b hb => ?_
    exact beq_eq_false_iff_ne.mpr fun heq => h (heq ▸ hb)
  rw [List.findIdx?_append, hnone, List.findIdx?_cons]
  simp

theorem takeEvents_line {line : Bytes} (h : newline ∉ line) (rest : Bytes) :
    takeEvents codec (line ++ newline :: rest) events =
      match codec.fromSlice line with
      | none => (.error .invalidEncoding, ⟨rest⟩)
      | some event => takeEvents codec rest (events ++ [event]) := by
  have hstop := findIdx?_line h rest
  have htake : (line ++ newline :: rest).take (line.length + 1) = line ++ [newline] := by
    rw [List.take_append, List.take_of_length_le (Nat.le_succ _), Nat.add_sub_cancel_left]
    rfl
  have hdrop : (line ++ newline :: rest).drop (line.length + 1) = rest := by
    rw [List.drop_append, List.drop_of_length_le (Nat.le_succ _), Nat.add_sub_cancel_left]
    rfl
  rw [takeEvents]
  split
  · rename_i hnone
    rw [hstop] at hnone
    cases hnone
  · rename_i stop hsome
    obtain rfl : line.length = stop := Option.some.inj (hstop.symm.trans hsome)
    have hline : (line ++ [newline]).take ((line ++ [newline]).length - 1) = line := by simp
    cases hevent : codec.fromSlice line with
    | none => simp only [htake, hdrop, hline, hevent]
    | some event => simp only [htake, hdrop, hline, hevent]

/-- The events of a list of lines. -/
abbrev Decodes (codec : EventCodec) : List Bytes → List TunnelEvent → Prop :=
  List.Forall₂ fun line event => codec.fromSlice line = some event

theorem takeEvents_lines {lines : List Bytes} (hlines : ∀ line ∈ lines, newline ∉ line) {rest : Bytes}
    (hrest : newline ∉ rest) {out : List TunnelEvent} {decoder : ControlDecoder} :
    takeEvents codec ((lines.flatMap fun line => line ++ [newline]) ++ rest) events =
        (.ok out, decoder) ↔
      (∃ decoded, out = events ++ decoded ∧ Decodes codec lines decoded) ∧ decoder = ⟨rest⟩ := by
  induction lines generalizing events with
  | nil =>
    rw [List.flatMap_nil, List.nil_append, takeEvents_open hrest, Prod.mk.injEq, Except.ok.injEq]
    constructor
    · rintro ⟨rfl, rfl⟩
      exact ⟨⟨[], (List.append_nil _).symm, .nil⟩, rfl⟩
    · rintro ⟨⟨decoded, rfl, hdecoded⟩, rfl⟩
      cases hdecoded
      exact ⟨(List.append_nil _).symm, rfl⟩
  | cons line lines ih =>
    have hline := hlines line List.mem_cons_self
    rw [List.flatMap_cons, List.append_assoc, List.append_assoc, List.singleton_append,
      takeEvents_line hline]
    cases hevent : codec.fromSlice line with
    | none =>
      constructor
      · intro h
        cases h
      · rintro ⟨⟨decoded, -, hdecoded⟩, -⟩
        cases hdecoded with
        | cons hfirst _ =>
          rw [hevent] at hfirst
          cases hfirst
    | some event =>
      show takeEvents codec _ (events ++ [event]) = _ ↔ _
      rw [ih fun l hl => hlines l (List.mem_cons_of_mem line hl)]
      refine and_congr_left fun _ => ⟨?_, ?_⟩
      · rintro ⟨decoded, rfl, hdecoded⟩
        exact ⟨event :: decoded, List.append_assoc _ _ _, .cons hevent hdecoded⟩
      · rintro ⟨decoded, rfl, hdecoded⟩
        cases hdecoded with
        | @cons _ first _ more hfirst hmore =>
          obtain rfl : event = first := Option.some.inj (hevent.symm.trans hfirst)
          exact ⟨more, List.append_cons _ _ _, hmore⟩

theorem takeEvents_eq_ok_iff {bytes : Bytes} {out : List TunnelEvent} {decoder : ControlDecoder} :
    takeEvents codec bytes [] = (.ok out, decoder) ↔
      Decodes codec (Lines.split newline bytes).1 out ∧ decoder = ⟨unterminated bytes⟩ := by
  have hlines : takeEvents codec (((Lines.split newline bytes).1.flatMap fun line => line ++ [newline]) ++
      unterminated bytes) [] = (.ok out, decoder) ↔
      (∃ decoded, out = [] ++ decoded ∧ Decodes codec (Lines.split newline bytes).1 decoded) ∧
        decoder = ⟨unterminated bytes⟩ :=
    takeEvents_lines (Lines.not_mem_line bytes) (Lines.not_mem_rest bytes)
  rw [unterminated, Lines.flatMap_split] at hlines
  rw [hlines]
  exact and_congr_left fun _ => ⟨fun ⟨_, hout, h⟩ => hout ▸ h, fun h => ⟨out, rfl, h⟩⟩

/-- A chunk within the limit gives the events of the lines that end in it, if they all are events, and
leaves what follows the last of them. -/
theorem push_eq_ok_iff {out : List TunnelEvent} {decoder : ControlDecoder} :
    push codec ⟨pending⟩ chunk = (.ok out, decoder) ↔
      pending.length + chunk.length ≤ maxControlBody ∧
        Decodes codec (Lines.split newline (pending ++ chunk)).1 out ∧
        decoder = ⟨unterminated (pending ++ chunk)⟩ := by
  unfold push
  by_cases hlimit : chunk.length > maxControlBody ∨ pending.length + chunk.length > maxControlBody
  · rw [if_pos hlimit]
    constructor
    · intro h
      cases h
    · rintro ⟨hboth, -⟩
      omega
  · rw [if_neg hlimit, takeEvents_eq_ok_iff]
    have hboth : pending.length + chunk.length ≤ maxControlBody := by omega
    exact ⟨fun h => ⟨hboth, h⟩, fun h => h.2⟩

/-! ## All chunks -/

/-- At every chunk, what was left open before it and the chunk together are within the limit. -/
def WithinLimit (pending : Bytes) : List Bytes → Prop
  | [] => True
  | chunk :: chunks => pending.length + chunk.length ≤ maxControlBody ∧
      WithinLimit (unterminated (pending ++ chunk)) chunks

theorem decodes_append {lines lines' : List Bytes} {out : List TunnelEvent} :
    Decodes codec (lines ++ lines') out ↔
      ∃ first second, out = first ++ second ∧ Decodes codec lines first ∧
        Decodes codec lines' second := by
  constructor
  · intro h
    induction lines generalizing out with
    | nil => exact ⟨[], out, rfl, .nil, h⟩
    | cons line lines ih =>
      cases h with
      | cons hline hmore =>
        obtain ⟨first, second, rfl, hfirst, hsecond⟩ := ih hmore
        exact ⟨_ :: first, second, rfl, .cons hline hfirst, hsecond⟩
  · rintro ⟨first, second, rfl, hfirst, hsecond⟩
    exact List.rel_append hfirst hsecond

theorem unterminated_append (bytes bytes' : Bytes) :
    unterminated (bytes ++ bytes') = unterminated (unterminated bytes ++ bytes') := by
  unfold unterminated
  rw [Lines.split_append]

theorem pushEach_cons {out : List TunnelEvent} {decoder last : ControlDecoder} :
    pushEach codec decoder (chunk :: chunks) = (.ok out, last) ↔
      ∃ first decoder' second, push codec decoder chunk = (.ok first, decoder') ∧
        pushEach codec decoder' chunks = (.ok second, last) ∧ out = first ++ second := by
  rw [pushEach]
  cases hpush : push codec decoder chunk with
  | mk result decoder' =>
    cases result with
    | error e =>
      constructor
      · intro h
        cases h
      · rintro ⟨_, _, _, h, -⟩
        cases h
    | ok first =>
      show ((pushEach codec decoder' chunks).1.map (first ++ ·), (pushEach codec decoder' chunks).2) =
        (.ok out, last) ↔ _
      constructor
      · intro h
        cases hmore : pushEach codec decoder' chunks with
        | mk rest end' =>
          rw [hmore] at h
          cases rest with
          | error e => cases h
          | ok second =>
            cases h
            exact ⟨first, decoder', second, rfl, hmore, rfl⟩
      · rintro ⟨_, _, second, hfirst, hmore, rfl⟩
        cases hfirst
        rw [hmore]
        rfl

/-- **All chunks.** The decoder succeeds on a list of chunks exactly if the limit is kept at each of them
and the lines of the whole stream are events, which it then gives. -/
theorem pushEach_eq_ok_iff (hpending : newline ∉ pending) {out : List TunnelEvent}
    {last : ControlDecoder} :
    pushEach codec ⟨pending⟩ chunks = (.ok out, last) ↔
      WithinLimit pending chunks ∧
        Decodes codec (Lines.split newline (pending ++ chunks.flatten)).1 out ∧
        last = ⟨unterminated (pending ++ chunks.flatten)⟩ := by
  induction chunks generalizing pending out with
  | nil =>
    rw [List.flatten_nil, List.append_nil, unterminated, Lines.split_open hpending]
    constructor
    · intro h
      cases h
      exact ⟨trivial, .nil, rfl⟩
    · rintro ⟨-, h, rfl⟩
      cases h
      rfl
  | cons chunk chunks ih =>
    -- The lines of the stream are those that end in the first chunk and those of the rest.
    have hopen : newline ∉ unterminated (pending ++ chunk) := Lines.not_mem_rest _
    rw [pushEach_cons, List.flatten_cons, ← List.append_assoc, unterminated_append,
      Lines.split_append, decodes_append, WithinLimit]
    constructor
    · rintro ⟨first, _, second, hpush, hmore, rfl⟩
      obtain ⟨hlimit, hfirst, rfl⟩ := push_eq_ok_iff.mp hpush
      obtain ⟨hlimits, hsecond, rfl⟩ := (ih hopen).mp hmore
      exact ⟨⟨hlimit, hlimits⟩, ⟨first, second, rfl, hfirst, hsecond⟩, rfl⟩
    · rintro ⟨⟨hlimit, hlimits⟩, ⟨first, second, rfl, hfirst, hsecond⟩, rfl⟩
      exact ⟨first, _, second, push_eq_ok_iff.mpr ⟨hlimit, hfirst, rfl⟩,
        (ih hopen).mpr ⟨hlimits, hsecond, rfl⟩, rfl⟩

/-- The client's loop only looks at the events. -/
theorem pushAll_eq_pushEach (decoder : ControlDecoder) (chunks : List Bytes) :
    pushAll codec decoder chunks = (pushEach codec decoder chunks).1 := by
  induction chunks generalizing decoder with
  | nil => rfl
  | cons chunk chunks ih =>
    rw [pushAll, pushEach]
    cases hpush : push codec decoder chunk with
    | mk result decoder' =>
      cases result with
      | error e => rfl
      | ok events =>
        show (pushAll codec decoder' chunks).map _ = (pushEach codec decoder' chunks).1.map _
        rw [ih]

theorem pushAll_eq_ok_iff (hpending : newline ∉ pending) {out : List TunnelEvent} :
    pushAll codec ⟨pending⟩ chunks = .ok out ↔
      WithinLimit pending chunks ∧
        Decodes codec (Lines.split newline (pending ++ chunks.flatten)).1 out := by
  rw [pushAll_eq_pushEach]
  constructor
  · intro h
    have hpair : pushEach codec ⟨pending⟩ chunks = (.ok out, _) := Prod.ext h rfl
    obtain ⟨hlimit, hlines, -⟩ := (pushEach_eq_ok_iff hpending).mp hpair
    exact ⟨hlimit, hlines⟩
  · rintro ⟨hlimit, hlines⟩
    rw [(pushEach_eq_ok_iff hpending).mpr ⟨hlimit, hlines, rfl⟩]

/-- The limit at a chunk in terms of what has come before it. -/
theorem withinLimit_iff (hpending : newline ∉ pending) : WithinLimit pending chunks ↔
    ∀ before chunk after, chunks = before ++ chunk :: after →
      (unterminated (pending ++ before.flatten)).length + chunk.length ≤ maxControlBody := by
  induction chunks generalizing pending with
  | nil =>
    refine iff_of_true trivial fun before chunk after h => ?_
    exact absurd h.symm (List.append_ne_nil_of_right_ne_nil before (List.cons_ne_nil _ _))
  | cons first chunks ih =>
    have hopen : newline ∉ unterminated (pending ++ first) := Lines.not_mem_rest _
    have hfirst : unterminated (pending ++ [].flatten) = pending := by
      rw [List.flatten_nil, List.append_nil]
      exact congrArg Prod.snd (Lines.split_open hpending)
    have hmore : ∀ before : List Bytes, unterminated (pending ++ (first :: before).flatten) =
        unterminated (unterminated (pending ++ first) ++ before.flatten) := by
      intro before
      rw [List.flatten_cons, ← List.append_assoc, unterminated_append]
    rw [WithinLimit, ih hopen]
    constructor
    · rintro ⟨hlimit, hlimits⟩ before chunk after h
      cases before with
      | nil =>
        cases h
        rw [hfirst]
        exact hlimit
      | cons c before =>
        cases h
        rw [hmore]
        exact hlimits before chunk after rfl
    · intro h
      refine ⟨hfirst ▸ h [] first chunks rfl, fun before chunk after hchunks => ?_⟩
      rw [← hmore]
      exact h (first :: before) chunk after (congrArg (first :: ·) hchunks)

end ControlDecoder

/-! ## The gateway's events -/

/-- serde_json gives every one of the events back and writes it without a newline. -/
structure EventCodec.Faithful (codec : EventCodec) (events : List TunnelEvent) : Prop where
  roundTrip : ∀ event ∈ events, codec.fromSlice (codec.toString event) = some event
  escaped : ∀ event ∈ events, newline ∉ codec.toString event

theorem EventCodec.Faithful.split_stream (h : codec.Faithful events) :
    Lines.split newline (codec.stream events) = (events.map codec.toString, []) := by
  have hlines : ∀ line ∈ events.map codec.toString, newline ∉ line := by
    intro line hline
    obtain ⟨event, hevent, rfl⟩ := List.mem_map.mp hline
    exact h.escaped event hevent
  have hstream : codec.stream events =
      ((events.map codec.toString).flatMap fun line => line ++ [newline]) ++ [] := by
    rw [List.append_nil, List.flatMap_map]
    rfl
  rw [hstream, Lines.split_lines hlines, Lines.split_nil, List.append_nil]

theorem EventCodec.Faithful.decodes (h : codec.Faithful events) :
    ControlDecoder.Decodes codec (events.map codec.toString) events :=
  List.forall₂_map_left_iff.mpr (List.forall₂_same.mpr h.roundTrip)

/-- **Control events over any frames.** For all events and every way to cut their bytes into chunks, the
client's decoder gives exactly the events if and only if at every chunk the bytes since the last newline
and the chunk together are within the limit. -/
theorem control_events_decoded (hcodec : codec.Faithful events)
    (hchunks : chunks.flatten = codec.stream events) :
    ControlDecoder.default.pushAll codec chunks = .ok events ↔
      ∀ before chunk after, chunks = before ++ chunk :: after →
        (unterminated before.flatten).length + chunk.length ≤ maxControlBody := by
  have hstream : ([] : Bytes) ++ chunks.flatten = codec.stream events := hchunks
  have hlimits : ∀ before : List Bytes, ([] : Bytes) ++ before.flatten = before.flatten :=
    fun _ => rfl
  rw [ControlDecoder.default, ControlDecoder.pushAll_eq_ok_iff List.not_mem_nil, hstream,
    hcodec.split_stream, ControlDecoder.withinLimit_iff List.not_mem_nil]
  simp only [hlimits]
  exact and_iff_left hcodec.decodes

/-- A heartbeat as it is sent. -/
def heartbeatLine : Bytes := utf8 "\x7b\"type\":\"heartbeat\",\"version\":1,\"generation\":3\x7d"

def heartbeatCodec : EventCodec where
  toString _ := heartbeatLine
  fromSlice line := if line = heartbeatLine then some (.heartbeat 1 3) else none

theorem heartbeatCodec_faithful (n : Nat) :
    heartbeatCodec.Faithful (List.replicate n (.heartbeat 1 3)) := by
  constructor
  · intro event hevent
    rw [List.eq_of_mem_replicate hevent]
    simp only [heartbeatCodec, if_true]
  · intro event _
    show newline ∉ heartbeatLine
    decide +kernel

theorem length_heartbeats (n : Nat) :
    (heartbeatCodec.stream (List.replicate n (.heartbeat 1 3))).length = 48 * n := by
  have hmessage : (heartbeatCodec.message (.heartbeat 1 3)).length = 48 := by decide +kernel
  unfold EventCodec.stream
  rw [List.length_flatMap, List.map_replicate, hmessage, List.sum_replicate_nat, Nat.mul_comm]

theorem length_unterminated_le (bytes : Bytes) : (unterminated bytes).length ≤ bytes.length := by
  have hbytes : ((Lines.split newline bytes).1.flatMap fun line => line ++ [newline]) ++
      unterminated bytes = bytes := Lines.flatMap_split bytes
  have hlength := congrArg List.length hbytes
  rw [List.length_append] at hlength
  omega

/-- One heartbeat in two frames. -/
theorem control_events_decoded_split :
    ControlDecoder.default.pushAll heartbeatCodec
      [(heartbeatCodec.stream [.heartbeat 1 3]).take 4, (heartbeatCodec.stream [.heartbeat 1 3]).drop 4] =
      .ok [.heartbeat 1 3] := by
  have hchunks : [(heartbeatCodec.stream [.heartbeat 1 3]).take 4,
      (heartbeatCodec.stream [.heartbeat 1 3]).drop 4].flatten =
      heartbeatCodec.stream [.heartbeat 1 3] := by simp
  refine (control_events_decoded (heartbeatCodec_faithful 1) hchunks).mpr ?_
  intro before chunk after h
  have hlength := congrArg List.length ((congrArg List.flatten h).symm.trans hchunks)
  rw [List.flatten_append, List.flatten_cons, List.length_append, List.length_append,
    ← List.replicate_one, length_heartbeats 1] at hlength
  have hopen := length_unterminated_le before.flatten
  have hmax : maxControlBody = 16384 := rfl
  omega

/-- Four bytes of a heartbeat, then a frame of the largest size. -/
def cutStream : List Bytes :=
  let bytes := heartbeatCodec.stream (List.replicate 400 (.heartbeat 1 3))
  [bytes.take 4, (bytes.drop 4).take maxControlBody, (bytes.drop 4).drop maxControlBody]

theorem control_events_refused :
    heartbeatCodec.Faithful (List.replicate 400 (.heartbeat 1 3)) ∧
      (heartbeatCodec.message (.heartbeat 1 3)).length ≤ maxControlBody ∧
      cutStream.flatten = heartbeatCodec.stream (List.replicate 400 (.heartbeat 1 3)) ∧
      (∀ chunk ∈ cutStream, chunk.length ≤ maxControlBody) ∧
      ControlDecoder.default.pushAll heartbeatCodec cutStream = .error .tooLarge := by
  have hmax : maxControlBody = 16384 := rfl
  have hfour : newline ∉ (heartbeatCodec.stream (List.replicate 400 (.heartbeat 1 3))).take 4 := by
    have hline : newline ∉ heartbeatLine.take 4 := by decide +kernel
    have hlong : 4 ≤ (heartbeatCodec.toString (.heartbeat 1 3)).length := by decide +kernel
    rw [EventCodec.stream, List.replicate_succ, List.flatMap_cons, EventCodec.message,
      List.append_assoc, List.take_append_of_le_length hlong]
    exact hline
  have hlength := length_heartbeats 400
  unfold cutStream
  generalize heartbeatCodec.stream (List.replicate 400 (.heartbeat 1 3)) = bytes at hfour hlength ⊢
  refine ⟨heartbeatCodec_faithful 400, by decide +kernel, ?_, ?_, ?_⟩
  · simp only [List.flatten_cons, List.flatten_nil, List.append_nil, List.take_append_drop]
  · intro chunk hchunk
    simp only [List.mem_cons, List.not_mem_nil, or_false] at hchunk
    rcases hchunk with rfl | rfl | rfl
    · rw [List.length_take]
      omega
    · rw [List.length_take]
      omega
    · rw [List.length_drop, List.length_drop]
      omega
  · have hfirst : ControlDecoder.default.push heartbeatCodec (bytes.take 4) =
        (.ok [], ⟨bytes.take 4⟩) := by
      refine ControlDecoder.push_eq_ok_iff.mpr ⟨?_, ?_, ?_⟩
      · rw [List.length_nil, List.length_take]
        omega
      · rw [List.nil_append, Lines.split_open hfour]
        exact .nil
      · rw [List.nil_append, unterminated, Lines.split_open hfour]
    have hsecond : (⟨bytes.take 4⟩ : ControlDecoder).push heartbeatCodec
        ((bytes.drop 4).take maxControlBody) = (.error .tooLarge, ⟨bytes.take 4⟩) := by
      refine if_pos (.inr ?_)
      rw [List.length_take, List.length_take, List.length_drop]
      omega
    simp only [ControlDecoder.pushAll, hfirst, hsecond]
    rfl

end BloomRelay.Protocol
