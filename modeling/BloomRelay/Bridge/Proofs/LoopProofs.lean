import BloomRelay.Bridge.Machine

/-!
# What the loops of a bridge do

The sending loop and `read_sni` on their own, then the invariant of one direction: every byte of its
input is in one place, in order, and every byte of its window is in the window, on its way or held by
the receiving loop.
-/

namespace BloomRelay.Bridging

open Protocol

variable {count : Nat → Nat → Nat} {l l' : Loop} {a : LoopAction}

/-! ## The sending loop -/

/-- A round of the sending loop sends something, and not too much. -/
structure Chunked (count : Nat → Nat → Nat) : Prop where
  pos : ∀ capacity len, 0 < capacity → 0 < len → 0 < count capacity len
  le_capacity : ∀ capacity len, count capacity len ≤ capacity
  le_length : ∀ capacity len, count capacity len ≤ len
  le_max : ∀ capacity len, count capacity len ≤ 16384
  enough : ∀ capacity len, min capacity 16384 ≤ count capacity len ∨ count capacity len = len

theorem chunked_count (side : Side) : Chunked (Bridge.count side) := by
  cases side <;> constructor <;> intro capacity len <;>
    simp only [Bridge.count, sendDataCount, sendBoundedCount] <;> omega

theorem sendLoop_flatten (bytes : Bytes) (capacities : List Nat) :
    (sendLoop count bytes capacities).1.flatten ++ (sendLoop count bytes capacities).2 = bytes := by
  induction capacities generalizing bytes with
  | nil => simp [sendLoop]
  | cons capacity capacities ih =>
    unfold sendLoop
    split_ifs with hbytes hcapacity
    · simp [hbytes]
    · exact ih bytes
    · simp only [List.flatten_cons, List.append_assoc, ih, List.take_append_drop]

theorem sendLoop_chunks (hcount : Chunked count) (bytes : Bytes) (capacities : List Nat) :
    ∀ chunk ∈ (sendLoop count bytes capacities).1, chunk ≠ [] ∧ chunk.length ≤ 16384 := by
  induction capacities generalizing bytes with
  | nil => simp [sendLoop]
  | cons capacity capacities ih =>
    unfold sendLoop
    split_ifs with hbytes hcapacity
    · simp
    · exact ih bytes
    · intro chunk hchunk
      rcases List.mem_cons.mp hchunk with rfl | hchunk
      · have hlen : 0 < bytes.length := List.length_pos_iff.mpr hbytes
        have hpos := hcount.pos capacity bytes.length (Nat.pos_of_ne_zero hcapacity) hlen
        have hmax := hcount.le_max capacity bytes.length
        constructor
        · rw [Ne, ← List.length_eq_zero_iff, List.length_take]
          omega
        · rw [List.length_take]
          omega
      · exact ih _ chunk hchunk

/-- The loop ends when enough capacity was granted. -/
theorem sendLoop_done (hcount : Chunked count) (bytes : Bytes) (capacities : List Nat)
    (h : bytes.length ≤ (capacities.map (min · 16384)).sum) :
    (sendLoop count bytes capacities).2 = [] := by
  induction capacities generalizing bytes with
  | nil => simpa [sendLoop] using h
  | cons capacity capacities ih =>
    rw [List.map_cons, List.sum_cons] at h
    unfold sendLoop
    split_ifs with hbytes hcapacity
    · rfl
    · refine ih bytes ?_
      rw [hcapacity] at h
      simpa using h
    · refine ih _ ?_
      rw [List.length_drop]
      rcases hcount.enough capacity bytes.length with henough | hall <;> omega

/-! ## `read_sni` -/

theorem readSni_ok {accept : List Bytes → Hello} {seen chunks rest : List Bytes} {host : String}
    {hello : Bytes} (h : readSni accept seen chunks = .ok (host, hello, rest)) :
    hello ++ rest.flatten = seen.flatten ++ chunks.flatten ∧ hello.length ≤ maxClientHello ∧
      validateHostname host = .ok () := by
  induction chunks generalizing seen with
  | nil => cases h
  | cons chunk chunks ih =>
    unfold readSni at h
    split_ifs at h with hbad
    have hseen : (seen ++ [chunk]).flatten = seen.flatten ++ chunk := by simp
    simp only at h
    split at h
    · cases h
    · cases h
    · obtain ⟨hflatten, hlen, hhost⟩ := ih h
      refine ⟨?_, hlen, hhost⟩
      rw [hflatten, hseen, List.flatten_cons, List.append_assoc]
    · cases h
    · split_ifs at h with hhost
      cases h
      refine ⟨?_, ?_, hhost⟩
      · rw [hseen, List.flatten_cons, List.append_assoc]
      · rw [hseen, List.length_append]
        omega

/-! ## The steps of a loop -/

inductive LoopMoves (count : Nat → Nat → Nat) (l : Loop) : LoopAction → Loop → Prop where
  | read (n : Nat) (hpc : l.this.pc = .idle) (hopen : l.this.readDone = false) (hpos : 0 < n)
      (hmax : n ≤ 16384) (hlen : n ≤ l.this.unread.length) :
      LoopMoves count l (.read n)
        { l with
          this := { l.this with
            unread := l.this.unread.drop n
            pc := .sending (l.this.unread.take n) } }
  | eof (hpc : l.this.pc = .idle) (hopen : l.this.readDone = false) (hunread : l.this.unread = []) :
      LoopMoves count l .eof
        { l with
          this := { l.this with readDone := true }
          out := { l.out with ended := true, last := true } }
  | send (capacity : Nat) (rest : Bytes) (hpc : l.this.pc = .sending rest) (hpos : 0 < capacity)
      (hwindow : capacity ≤ l.out.flow.window) :
      LoopMoves count l (.send capacity)
        { l with
          this := { l.this with
            pc := if rest.drop (count capacity rest.length) = [] then .idle
              else .sending (rest.drop (count capacity rest.length)) }
          out := { l.out with flow := l.out.flow.send (rest.take (count capacity rest.length)) } }
  | receive (n : Nat) (last : Bool) (hpc : l.this.pc = .idle) (hopen : l.this.recvDone = false)
      (hlen : n ≤ l.inn.flow.queue.length) :
      LoopMoves count l (.receive n)
        { l with
          this := { l.this with pc := .writing (l.inn.flow.queue.take n) n }
          inn := { l.inn with flow := l.inn.flow.take n, last := last } }
  | written (n : Nat) (rest : Bytes) (size : Nat) (hpc : l.this.pc = .writing rest size) :
      LoopMoves count l (.write n)
        { l with
          this := { l.this with written := l.this.written ++ rest, pc := .idle }
          inn := { l.inn with flow := l.inn.flow.release size } }
  | write (n : Nat) (rest : Bytes) (size : Nat) (hpc : l.this.pc = .writing rest size) :
      LoopMoves count l (.write n)
        { l with
          this := { l.this with
            written := l.this.written ++ rest.take n
            pc := .writing (rest.drop n) size } }
  | finish (hpc : l.this.pc = .idle) (hopen : l.this.recvDone = false) (hended : l.inn.ended = true)
      (hqueue : l.inn.flow.queue = []) :
      LoopMoves count l .finish { l with this := { l.this with recvDone := true } }
  | fail : LoopMoves count l .fail { l with this := { l.this with failed := true } }

theorem loopMoves_of_step (h : l.step count a = some l') : LoopMoves count l a l' := by
  cases a with
  | read n =>
    simp only [Loop.step] at h
    split_ifs at h with hguard
    obtain ⟨hpc, hopen, hpos, hmax, hlen⟩ := hguard
    cases h
    exact .read n hpc hopen hpos hmax hlen
  | eof =>
    simp only [Loop.step] at h
    split_ifs at h with hguard
    obtain ⟨hpc, hopen, hunread, -⟩ := hguard
    cases h
    exact .eof hpc hopen hunread
  | send capacity =>
    simp only [Loop.step] at h
    split at h
    · rename_i rest hpc
      by_cases hguard : 0 < capacity ∧ capacity ≤ l.out.flow.window
      · rw [if_pos hguard] at h
        cases h
        exact .send capacity rest hpc hguard.1 hguard.2
      · rw [if_neg hguard] at h
        cases h
    · cases h
  | receive n =>
    simp only [Loop.step] at h
    split_ifs at h with hguard
    obtain ⟨hpc, hopen, hframe⟩ := hguard
    cases h
    refine .receive n _ hpc hopen ?_
    rcases hframe with ⟨-, hlen⟩ | ⟨rfl, -⟩
    · exact hlen
    · exact Nat.zero_le _
  | write n =>
    simp only [Loop.step] at h
    split at h
    · rename_i rest size hpc
      split_ifs at h
      · cases h
        exact .written n rest size hpc
      · cases h
        exact .write n rest size hpc
    · cases h
  | finish =>
    simp only [Loop.step] at h
    split_ifs at h with hguard
    obtain ⟨hpc, hopen, hended, hqueue⟩ := hguard
    cases h
    exact .finish hpc hopen hended hqueue
  | fail =>
    simp only [Loop.step] at h
    split_ifs at h
    cases h
    exact .fail

/-! ## One direction -/

/-- What the loop has read from its socket and not sent. -/
def End.sending (e : End) : Bytes :=
  match e.pc with
  | .sending rest => rest
  | _ => []

/-- What the loop has received and not written to its socket. -/
def End.writing (e : End) : Bytes :=
  match e.pc with
  | .writing rest _ => rest
  | _ => []

/-- What the loop has received and not released. -/
def End.holding (e : End) : Nat :=
  match e.pc with
  | .writing _ size => size
  | _ => 0

/-- The direction from `src` to `dst` for an input and a window. -/
structure Direction (credit : Nat) (input : Bytes) (src dst : End) (p : Pipe) : Prop where
  /-- Every byte is in one place, in order. -/
  bytes : dst.written ++ dst.writing ++ p.flow.queue ++ src.sending ++ src.unread = input
  credit_eq : p.flow.credit = credit
  held : p.flow.held = dst.holding
  ended : p.ended = src.readDone
  /-- `END_STREAM` comes after all bytes. -/
  sent : src.readDone = true → src.sending = [] ∧ src.unread = []
  /-- The socket is shut down after all bytes. -/
  received : dst.recvDone = true → p.ended = true ∧ p.flow.queue = [] ∧ dst.writing = []
  busy : ∀ rest, src.pc = .sending rest → rest ≠ []

section Direction

variable {credit : Nat} {input : Bytes} {src dst : End} {p : Pipe}

theorem sending_of_idle {e : End} (h : e.pc = .idle) : e.sending = [] := by
  unfold End.sending
  rw [h]

theorem writing_of_idle {e : End} (h : e.pc = .idle) : e.writing = [] := by
  unfold End.writing
  rw [h]

theorem holding_of_idle {e : End} (h : e.pc = .idle) : e.holding = 0 := by
  unfold End.holding
  rw [h]

theorem sending_of_writing {e : End} {rest : Bytes} {size : Nat} (h : e.pc = .writing rest size) :
    e.sending = [] := by
  unfold End.sending
  rw [h]

theorem sending_eq {e : End} {rest : Bytes} (h : e.pc = .sending rest) : e.sending = rest := by
  unfold End.sending
  rw [h]

theorem writing_eq {e : End} {rest : Bytes} {size : Nat} (h : e.pc = .writing rest size) :
    e.writing = rest := by
  unfold End.writing
  rw [h]

theorem holding_eq {e : End} {rest : Bytes} {size : Nat} (h : e.pc = .writing rest size) :
    e.holding = size := by
  unfold End.holding
  rw [h]

/-- The sending loop is done when nothing is left. -/
theorem sending_of_rest {e : End} {rest : Bytes}
    (h : e.pc = if rest = [] then .idle else .sending rest) : e.sending = rest := by
  by_cases hrest : rest = []
  · rw [if_pos hrest] at h
    rw [sending_of_idle h, hrest]
  · rw [if_neg hrest] at h
    exact sending_eq h

/-- A step of the receiving loop that leaves its bytes where they are. -/
theorem Direction.congr_dst {dst' : End} (h : Direction credit input src dst p)
    (hwritten : dst'.written = dst.written) (hwriting : dst'.writing = dst.writing)
    (hholding : dst'.holding = dst.holding) (hdone : dst'.recvDone = dst.recvDone) :
    Direction credit input src dst' p := by
  refine ⟨?_, h.credit_eq, ?_, h.ended, h.sent, ?_, h.busy⟩
  · rw [hwritten, hwriting]
    exact h.bytes
  · rw [hholding]
    exact h.held
  · rw [hdone, hwriting]
    exact h.received

/-- A step of the sending loop that leaves its bytes where they are. -/
theorem Direction.congr_src {src' : End} (h : Direction credit input src dst p)
    (hsending : src'.sending = src.sending) (hunread : src'.unread = src.unread)
    (hdone : src'.readDone = src.readDone) (hbusy : ∀ rest, src'.pc = .sending rest → rest ≠ []) :
    Direction credit input src' dst p := by
  refine ⟨?_, h.credit_eq, h.held, ?_, ?_, h.received, hbusy⟩
  · rw [hsending, hunread]
    exact h.bytes
  · rw [hdone]
    exact h.ended
  · rw [hdone, hsending, hunread]
    exact h.sent

theorem Direction.written_prefix (h : Direction credit input src dst p) : dst.written <+: input := by
  rw [← h.bytes]
  simp only [List.append_assoc]
  exact List.prefix_append _ _

/-- All is sent when nothing is left to read and to send. -/
theorem Direction.all_sent (h : Direction credit input src dst p) (hsending : src.sending = []) (hunread : src.unread = []) :
    dst.written ++ dst.writing ++ p.flow.queue = input := by
  have hbytes := h.bytes
  rw [hsending, hunread, List.append_nil, List.append_nil] at hbytes
  exact hbytes

/-- All is written when the stream has ended and nothing of it is left. -/
theorem Direction.all_written (h : Direction credit input src dst p) (hended : p.ended = true) (hqueue : p.flow.queue = [])
    (hwriting : dst.writing = []) : dst.written = input := by
  obtain ⟨hsending, hunread⟩ := h.sent (h.ended ▸ hended)
  have hall := h.all_sent hsending hunread
  rw [hwriting, hqueue, List.append_nil, List.append_nil] at hall
  exact hall

/-- The direction a loop sends on, after its step. -/
theorem Direction.step_src (hcount : Chunked count) (h : Direction credit input l.this dst l.out)
    (hm : LoopMoves count l a l') : Direction credit input l'.this dst l'.out := by
  cases hm with
  | read n hpc hopen hpos hmax hlen =>
    refine ⟨?_, h.credit_eq, h.held, h.ended, ?_, h.received, ?_⟩
    · have hbytes := h.bytes
      rw [sending_of_idle hpc, List.append_nil] at hbytes
      simpa [End.sending] using hbytes
    · intro hdone
      rw [hopen] at hdone
      cases hdone
    · rintro rest ⟨⟩
      rw [Ne, ← List.length_eq_zero_iff, List.length_take]
      omega
  | eof hpc hopen hunread =>
    refine ⟨h.bytes, h.credit_eq, h.held, rfl, fun _ => ⟨sending_of_idle hpc, hunread⟩, ?_, h.busy⟩
    intro hdone
    obtain ⟨hended, -⟩ := h.received hdone
    rw [h.ended, hopen] at hended
    cases hended
  | send capacity rest hpc hpos hwindow =>
    have hopen : l.this.readDone = false := by
      rw [Bool.eq_false_iff]
      intro hdone
      obtain ⟨hnone, -⟩ := h.sent hdone
      rw [sending_eq hpc] at hnone
      exact h.busy rest hpc hnone
    refine ⟨?_, ?_, h.held, h.ended, ?_, ?_, ?_⟩
    · have hbytes := h.bytes
      rw [sending_eq hpc] at hbytes
      rw [sending_of_rest rfl, ← hbytes]
      simp only [CreditFlow.send, List.append_assoc, List.append_cancel_left_eq]
      rw [← List.append_assoc, List.take_append_drop]
    · have hle : (rest.take (count capacity rest.length)).length ≤ l.out.flow.window := by
        have hcapacity := hcount.le_capacity capacity rest.length
        rw [List.length_take]
        omega
      exact (CreditFlow.credit_send hle).trans h.credit_eq
    · intro hdone
      rw [hopen] at hdone
      cases hdone
    · intro hdone
      obtain ⟨hended, -⟩ := h.received hdone
      rw [h.ended, hopen] at hended
      cases hended
    · intro rest' hpc'
      by_cases hrest : rest.drop (count capacity rest.length) = []
      · simp [hrest] at hpc'
      · simp only [hrest, if_false, Pc.sending.injEq] at hpc'
        exact hpc' ▸ hrest
  | receive n last hpc =>
    exact h.congr_src (sending_of_idle hpc).symm rfl rfl (by rintro rest ⟨⟩)
  | written n rest size hpc =>
    exact h.congr_src (sending_of_writing hpc).symm rfl rfl (by rintro rest ⟨⟩)
  | write n rest size hpc =>
    exact h.congr_src (sending_of_writing hpc).symm rfl rfl (by rintro rest ⟨⟩)
  | finish | fail => exact h.congr_src rfl rfl rfl h.busy

/-- The direction a loop receives from, after its step. -/
theorem Direction.step_dst (h : Direction credit input src l.this l.inn)
    (hm : LoopMoves count l a l') : Direction credit input src l'.this l'.inn := by
  cases hm with
  | read n hpc => exact h.congr_dst rfl (writing_of_idle hpc).symm (holding_of_idle hpc).symm rfl
  | eof => exact h.congr_dst rfl rfl rfl rfl
  | send capacity rest hpc =>
    have hwriting : l.this.writing = [] := by
      unfold End.writing
      rw [hpc]
    have hholding : l.this.holding = 0 := by
      unfold End.holding
      rw [hpc]
    refine h.congr_dst rfl ?_ ?_ rfl
    · rw [hwriting]
      unfold End.writing
      split_ifs <;> rfl
    · rw [hholding]
      unfold End.holding
      split_ifs <;> rfl
  | receive n last hpc hopen hlen =>
    refine ⟨?_, ?_, ?_, h.ended, h.sent, ?_, h.busy⟩
    · have hbytes := h.bytes
      rw [writing_of_idle hpc, List.append_nil] at hbytes
      rw [writing_eq rfl, ← hbytes]
      simp only [CreditFlow.take, List.append_assoc, List.append_cancel_left_eq]
      rw [← List.append_assoc, List.take_append_drop]
    · exact (CreditFlow.credit_take hlen).trans h.credit_eq
    · have hheld := h.held
      rw [holding_of_idle hpc] at hheld
      simp [CreditFlow.take, End.holding, hheld]
    · intro hdone
      rw [hopen] at hdone
      cases hdone
  | written n rest size hpc =>
    have hheld : l.inn.flow.held = size := h.held.trans (holding_eq hpc)
    refine ⟨?_, ?_, ?_, h.ended, h.sent, ?_, h.busy⟩
    · have hbytes := h.bytes
      rw [writing_eq hpc] at hbytes
      simpa [CreditFlow.release, End.writing] using hbytes
    · exact (CreditFlow.credit_release hheld.ge).trans h.credit_eq
    · simp [CreditFlow.release, End.holding, hheld]
    · intro hdone
      obtain ⟨hended, hqueue, -⟩ := h.received hdone
      exact ⟨hended, hqueue, rfl⟩
  | write n rest size hpc =>
    refine ⟨?_, h.credit_eq, ?_, h.ended, h.sent, ?_, h.busy⟩
    · have hbytes := h.bytes
      rw [writing_eq hpc] at hbytes
      rw [writing_eq rfl, ← hbytes]
      simp only [List.append_assoc, List.append_cancel_left_eq]
      rw [← List.append_assoc, List.take_append_drop]
    · exact h.held.trans (holding_eq hpc)
    · intro hdone
      obtain ⟨hended, hqueue, hwriting⟩ := h.received hdone
      rw [writing_eq hpc] at hwriting
      refine ⟨hended, hqueue, ?_⟩
      rw [writing_eq rfl, hwriting, List.drop_nil]
  | finish hpc hopen hended hqueue =>
    exact ⟨h.bytes, h.credit_eq, h.held, h.ended, h.sent,
      fun _ => ⟨hended, hqueue, writing_of_idle hpc⟩, h.busy⟩
  | fail => exact h.congr_dst rfl rfl rfl rfl

end Direction

/-! ## Both directions -/

/-- Both directions of a bridge for what the browser and the upstream send. -/
structure Carries (upWindow downWindow : Nat) (browser upstream : Bytes) (s : Bridge) : Prop where
  up : Direction upWindow browser s.gateway s.client s.up
  down : Direction downWindow upstream s.client s.gateway s.down

section Carries

variable {upWindow downWindow : Nat} {hello browser upstream : Bytes} {cb cu : Bool} {s s' : Bridge}

theorem bridgeStep_eq {side : Side} {a : LoopAction} (h : BridgeStep s (side, a) s') :
    ∃ l, LoopMoves (Bridge.count side) (s.loop side) a l ∧ s' = s.withLoop side l := by
  simp only [BridgeStep, Bridge.step] at h
  split_ifs at h
  obtain ⟨l, hl, rfl⟩ := Option.map_eq_some_iff.mp h
  exact ⟨l, loopMoves_of_step hl, rfl⟩

theorem Carries.step {a : Side × LoopAction} (h : Carries upWindow downWindow browser upstream s)
    (hs : BridgeStep s a s') : Carries upWindow downWindow browser upstream s' := by
  obtain ⟨side, a⟩ := a
  obtain ⟨l, hm, rfl⟩ := bridgeStep_eq hs
  cases side with
  | gateway => exact ⟨h.up.step_src (chunked_count .gateway) hm, h.down.step_dst hm⟩
  | client => exact ⟨h.up.step_dst hm, h.down.step_src (chunked_count .client) hm⟩

theorem credit_new (window : Nat) : (CreditFlow.new window : CreditFlow UInt8).credit = window := by
  simp [CreditFlow.credit, CreditFlow.outstanding, CreditFlow.new]

theorem Carries.start :
    Carries upWindow downWindow (hello ++ browser) upstream
      (.start upWindow downWindow hello browser upstream cb cu) := by
  constructor
  · refine ⟨?_, credit_new upWindow, rfl, rfl, nofun, nofun, ?_⟩
    · rw [sending_of_rest rfl]
      rfl
    · intro rest hpc
      by_cases hhello : hello = []
      · simp [Bridge.start, hhello] at hpc
      · simp only [Bridge.start, hhello, if_false, Pc.sending.injEq] at hpc
        exact hpc ▸ hhello
  · refine ⟨?_, credit_new downWindow, ?_, rfl, nofun, nofun, nofun⟩
    · have hwriting :
          (Bridge.start upWindow downWindow hello browser upstream cb cu).gateway.writing = [] := by
        unfold End.writing Bridge.start
        split_ifs <;> rfl
      rw [hwriting]
      rfl
    · unfold End.holding Bridge.start
      split_ifs <;> rfl

theorem carries_of_run {tr : List (Event Bridge (Side × LoopAction))}
    (h : BridgeRun upWindow downWindow hello browser upstream cb cu tr s) :
    Carries upWindow downWindow (hello ++ browser) upstream s :=
  h.state_invariant (Carries upWindow downWindow (hello ++ browser) upstream) .start
    fun _ _ _ hc hs => hc.step hs

end Carries

end BloomRelay.Bridging
