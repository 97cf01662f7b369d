import BloomRelay.Bridge.Proofs.LoopProofs

/-!
# When a bridge makes progress

A loop that waits for capacity reads nothing. Both can wait for each other only if both have more to send
than their windows hold; if at most one of them does at any time, some step is always possible while a
byte is missing.
-/

namespace BloomRelay.Bridging

open Protocol

variable {s s' : Bridge} {count : Nat → Nat → Nat} {l l' : Loop} {a : LoopAction}
  {upWindow downWindow : Nat} {hello browser upstream : Bytes} {cb cu : Bool}
  {tr : List (Event Bridge (Side × LoopAction))}

/-! ## Waiting for capacity -/

/-- The loop has more to send than its window holds. -/
def Loop.Over (l : Loop) : Prop := l.out.flow.window < l.this.sending.length

def Side.other : Side → Side
  | .gateway => .client
  | .client => .gateway

/-- A loop that reads more than its window holds does it while the other loop has not more to send than
its own window holds. -/
def Unhurried (e : Event Bridge (Side × LoopAction)) : Prop :=
  ∀ side n, e.label = (side, .read n) → (e.src.loop side).out.flow.window < n →
    ¬ (e.src.loop side.other).Over

theorem over_of_idle (h : l.this.pc = .idle) : ¬ l.Over := by
  unfold Loop.Over
  rw [sending_of_idle h]
  exact Nat.not_lt_zero _

/-- A loop gets over its window only by reading. -/
theorem LoopMoves.over (h : LoopMoves count l a l') (hover : l'.Over) :
    l.Over ∨ ∃ n, a = .read n ∧ l.out.flow.window < n := by
  unfold Loop.Over at hover
  cases h with
  | read n hpc hopen hpos hmax hlen =>
    rw [sending_eq rfl, List.length_take] at hover
    refine .inr ⟨n, rfl, ?_⟩
    simp only at hover
    omega
  | send capacity rest hpc hpos hwindow =>
    left
    unfold Loop.Over
    rw [sending_of_rest rfl, List.length_drop] at hover
    rw [sending_eq hpc]
    simp only [CreditFlow.send, List.length_take] at hover
    omega
  | eof | finish | fail => exact .inl hover
  | receive | written | write => exact absurd hover (Nat.not_lt_zero _)

/-- No loop takes from the other's window. -/
theorem LoopMoves.inn_window (h : LoopMoves count l a l') :
    l.inn.flow.window ≤ l'.inn.flow.window := by
  cases h with
  | written => exact Nat.le_add_right _ _
  | _ => exact le_rfl

/-- At most one loop has more to send than its window holds. -/
def OneOver (s : Bridge) : Prop := ¬ ((s.loop .gateway).Over ∧ (s.loop .client).Over)

theorem OneOver.step {label : Side × LoopAction} (h : OneOver s) (hs : BridgeStep s label s')
    (hu : Unhurried ⟨s, label, s'⟩) : OneOver s' := by
  obtain ⟨side, a⟩ := label
  obtain ⟨l, hm, rfl⟩ := bridgeStep_eq hs
  have hwindow := hm.inn_window
  rintro ⟨hgateway, hclient⟩
  cases side with
  | gateway =>
    -- the client has not moved, and its window has not shrunk
    have hclient' : (s.loop .client).Over := hwindow.trans_lt hclient
    rcases hm.over hgateway with hover | ⟨n, rfl, hlt⟩
    · exact h ⟨hover, hclient'⟩
    · exact hu .gateway n rfl hlt hclient'
  | client =>
    have hgateway' : (s.loop .gateway).Over := hwindow.trans_lt hgateway
    rcases hm.over hclient with hover | ⟨n, rfl, hlt⟩
    · exact h ⟨hgateway', hover⟩
    · exact hu .client n rfl hlt hgateway'

theorem oneOver_of_run (h : BridgeRun upWindow downWindow hello browser upstream cb cu tr s)
    (hu : ∀ e ∈ tr, Unhurried e) : OneOver s := by
  induction h with
  | refl =>
    rintro ⟨-, hclient⟩
    exact over_of_idle rfl hclient
  | snoc _ hs ih =>
    exact (ih fun e he => hu e (List.mem_cons_of_mem _ he)).step hs (hu _ List.mem_cons_self)

/-! ## Steps that are possible -/

/-- Some step of one of the loops is possible. -/
def Enabled (s : Bridge) : Prop := ∃ side a, a ≠ .fail ∧ (s.step (side, a)).isSome = true

theorem enabled_of_step (side : Side) (hfailed : (s.loop side).this.failed = false)
    (h : ((s.loop side).step (Bridge.count side) a).isSome = true) (ha : a ≠ .fail) : Enabled s := by
  refine ⟨side, a, ha, ?_⟩
  simp [Bridge.step, hfailed, h]

theorem write_enabled {rest : Bytes} {size : Nat} (h : l.this.pc = .writing rest size) :
    (l.step count (.write rest.length)).isSome = true := by
  simp [Loop.step, h]

theorem send_enabled {rest : Bytes} (h : l.this.pc = .sending rest) (hwindow : 0 < l.out.flow.window) :
    (l.step count (.send 1)).isSome = true := by
  have hguard : 0 < 1 ∧ 1 ≤ l.out.flow.window := ⟨Nat.one_pos, hwindow⟩
  simp [Loop.step, h, hguard.2]

theorem receive_enabled (h : l.this.pc = .idle) (hopen : l.this.recvDone = false)
    (hqueue : l.inn.flow.queue ≠ []) : (l.step count (.receive 1)).isSome = true := by
  have hlen : 1 ≤ l.inn.flow.queue.length := List.length_pos_iff.mpr hqueue
  simp [Loop.step, h, hopen, hlen]

theorem read_enabled (h : l.this.pc = .idle) (hopen : l.this.readDone = false)
    (hunread : l.this.unread ≠ []) : (l.step count (.read 1)).isSome = true := by
  have hlen : 1 ≤ l.this.unread.length := List.length_pos_iff.mpr hunread
  simp [Loop.step, h, hopen, hlen]

section Direction

variable {credit : Nat} {input : Bytes} {src dst : End} {p : Pipe}

/-- There is something to receive only while the receiving loop has not seen the end. -/
theorem Direction.recv_open (h : Direction credit input src dst p) (hqueue : p.flow.queue ≠ []) :
    dst.recvDone = false := by
  rw [Bool.eq_false_iff]
  intro hdone
  exact hqueue (h.received hdone).2.1

/-- When the window is used up and the receiving loop has no frame, frames wait for it. -/
theorem Direction.queue_of_window (h : Direction credit input src dst p) (hcredit : 0 < credit)
    (hwindow : p.flow.window = 0) (hdst : dst.holding = 0) : p.flow.queue ≠ [] := by
  have htotal := h.credit_eq
  have hheld := h.held
  rw [hdst] at hheld
  simp only [CreditFlow.credit, CreditFlow.outstanding, hwindow, hheld] at htotal
  intro hempty
  rw [hempty, List.length_nil] at htotal
  omega

/-- A byte that is missing while both loops are idle waits to be received or to be read. -/
theorem Direction.missing (h : Direction credit input src dst p) (hsrc : src.pc = .idle)
    (hdst : dst.pc = .idle) (hmissing : dst.written ≠ input) :
    p.flow.queue ≠ [] ∨ src.unread ≠ [] ∧ src.readDone = false := by
  by_cases hqueue : p.flow.queue = []
  · right
    have hunread : src.unread ≠ [] := by
      intro hempty
      have hbytes := h.all_sent (sending_of_idle hsrc) hempty
      rw [writing_of_idle hdst, hqueue, List.append_nil, List.append_nil] at hbytes
      exact hmissing hbytes
    refine ⟨hunread, ?_⟩
    rw [Bool.eq_false_iff]
    intro hdone
    exact hunread (h.sent hdone).2
  · exact .inl hqueue

end Direction

/-- A loop that waits for capacity while the other is idle. -/
theorem enabled_of_waiting (side : Side) {credit : Nat} {input : Bytes}
    (h : Direction credit input (s.loop side).this (s.loop side.other).this (s.loop side).out)
    (hinn : (s.loop side.other).inn = (s.loop side).out) (hcredit : 0 < credit)
    (hfailed : ∀ side, (s.loop side).this.failed = false)
    (hidle : (s.loop side.other).this.pc = .idle) {rest : Bytes}
    (hpc : (s.loop side).this.pc = .sending rest) : Enabled s := by
  by_cases hwindow : (s.loop side).out.flow.window = 0
  · have hqueue := h.queue_of_window hcredit hwindow (holding_of_idle hidle)
    refine enabled_of_step side.other (hfailed side.other) (receive_enabled hidle (h.recv_open hqueue) ?_) nofun
    rw [hinn]
    exact hqueue
  · exact enabled_of_step side (hfailed side) (send_enabled hpc (Nat.pos_of_ne_zero hwindow)) nofun

/-- A byte that is missing while both loops are idle. -/
theorem enabled_of_missing (side : Side) {credit : Nat} {input : Bytes}
    (h : Direction credit input (s.loop side).this (s.loop side.other).this (s.loop side).out)
    (hinn : (s.loop side.other).inn = (s.loop side).out)
    (hfailed : ∀ side, (s.loop side).this.failed = false)
    (hpc : (s.loop side).this.pc = .idle) (hidle : (s.loop side.other).this.pc = .idle)
    (hmissing : (s.loop side.other).this.written ≠ input) : Enabled s := by
  rcases h.missing hpc hidle hmissing with hqueue | ⟨hunread, hopen⟩
  · refine enabled_of_step side.other (hfailed side.other) (receive_enabled hidle (h.recv_open hqueue) ?_) nofun
    rw [hinn]
    exact hqueue
  · exact enabled_of_step side (hfailed side) (read_enabled hpc hopen hunread) nofun

/-- Both loops cannot wait for capacity. -/
theorem OneOver.window_pos (h : OneOver s) (hc : Carries upWindow downWindow browser upstream s)
    {rest rest' : Bytes} (hgateway : s.gateway.pc = .sending rest)
    (hclient : s.client.pc = .sending rest') : 0 < s.up.flow.window ∨ 0 < s.down.flow.window := by
  by_contra hzero
  have hrest : 0 < rest.length := List.length_pos_iff.mpr (hc.up.busy rest hgateway)
  have hrest' : 0 < rest'.length := List.length_pos_iff.mpr (hc.down.busy rest' hclient)
  refine h ⟨?_, ?_⟩
  · show s.up.flow.window < s.gateway.sending.length
    rw [sending_eq hgateway]
    omega
  · show s.down.flow.window < s.client.sending.length
    rw [sending_eq hclient]
    omega

theorem Carries.enabled (hc : Carries upWindow downWindow browser upstream s) (hup : 0 < upWindow)
    (hdown : 0 < downWindow) (hone : OneOver s) (hfailed : ∀ side, (s.loop side).this.failed = false)
    (hmissing : s.client.written ≠ browser ∨ s.gateway.written ≠ upstream) : Enabled s := by
  cases hgateway : s.gateway.pc with
  | writing rest size =>
    exact enabled_of_step .gateway (hfailed .gateway) (write_enabled hgateway) nofun
  | sending rest =>
    cases hclient : s.client.pc with
    | writing rest' size =>
      exact enabled_of_step .client (hfailed .client) (write_enabled hclient) nofun
    | idle => exact enabled_of_waiting .gateway hc.up rfl hup hfailed hclient hgateway
    | sending rest' =>
      rcases hone.window_pos hc hgateway hclient with hwindow | hwindow
      · exact enabled_of_step .gateway (hfailed .gateway) (send_enabled hgateway hwindow) nofun
      · exact enabled_of_step .client (hfailed .client) (send_enabled hclient hwindow) nofun
  | idle =>
    cases hclient : s.client.pc with
    | writing rest' size =>
      exact enabled_of_step .client (hfailed .client) (write_enabled hclient) nofun
    | sending rest' =>
      exact enabled_of_waiting .client hc.down rfl hdown hfailed hgateway hclient
    | idle =>
      rcases hmissing with hmissing | hmissing
      · exact enabled_of_missing .gateway hc.up rfl hfailed hgateway hclient hmissing
      · exact enabled_of_missing .client hc.down rfl hfailed hclient hgateway hmissing

/-! ## Progress -/

theorem LoopMoves.failed (h : LoopMoves count l a l') (ha : a ≠ .fail) :
    l'.this.failed = l.this.failed := by
  cases h with
  | fail => exact absurd rfl ha
  | _ => rfl

theorem failed_of_run (h : BridgeRun upWindow downWindow hello browser upstream cb cu tr s)
    (hfail : ∀ e ∈ tr, e.label.2 ≠ .fail) (side : Side) : (s.loop side).this.failed = false := by
  induction h with
  | refl => cases side <;> rfl
  | @snoc tr s s' label _ hs ih =>
    obtain ⟨side', a⟩ := label
    obtain ⟨l, hm, rfl⟩ := bridgeStep_eq hs
    have hsame := hm.failed (hfail _ List.mem_cons_self)
    have hbefore := ih fun e he => hfail e (List.mem_cons_of_mem _ he)
    cases side' <;> cases side <;> first | exact hsame.trans hbefore | exact hbefore

/-- While the browser and the upstream read, in every run without an error in which at most one loop at a
time has more to send than its window holds, some step of a loop is possible as long as a byte is
missing. -/
theorem bridge_progress (hup : 0 < upWindow) (hdown : 0 < downWindow)
    (h : BridgeRun upWindow downWindow hello browser upstream cb cu tr s)
    (hfail : ∀ e ∈ tr, e.label.2 ≠ .fail) (hunhurried : ∀ e ∈ tr, Unhurried e)
    (hmissing : s.client.written ≠ hello ++ browser ∨ s.gateway.written ≠ upstream) : Enabled s :=
  (carries_of_run h).enabled hup hdown (oneOver_of_run h hunhurried) (failed_of_run h hfail) hmissing

/-- A read that fits into the window, or a step that neither reads nor fails. -/
def fits (s : Bridge) : Side × LoopAction → Bool
  | (side, .read n) => n ≤ (s.loop side).out.flow.window
  | (_, .fail) => false
  | _ => true

theorem unhurried_of_fits {e : Event Bridge (Side × LoopAction)} (h : fits e.src e.label = true) :
    e.label.2 ≠ .fail ∧ Unhurried e := by
  obtain ⟨src, ⟨side, a⟩, dst⟩ := e
  constructor
  · rintro rfl
    cases h
  · rintro side' n ⟨⟩ hlt
    have hle : n ≤ (src.loop side).out.flow.window := of_decide_eq_true h
    exact absurd hlt (Nat.not_lt.mpr hle)

theorem bridge_progress_short :
    ∃ tr s, BridgeRun 2 2 [22, 3, 1] [5] [7, 8] true true tr s ∧ (∀ e ∈ tr, Unhurried e) ∧
      s.client.written = [22, 3] ∧ s.client.pc = .sending [7, 8] ∧ Enabled s := by
  have hplay : (Run.play (fun s a => if fits s a then s.step a else none)
      (.start 2 2 [22, 3, 1] [5] [7, 8] true true)
      [(.gateway, .send 2), (.client, .receive 2), (.client, .write 2), (.client, .read 2)]).any
      (fun s => s.client.written = [22, 3] ∧ s.client.pc = .sending [7, 8]) = true := by decide +kernel
  obtain ⟨s, hs, hfacts⟩ := (Option.any_eq_true _ _).mp hplay
  obtain ⟨hwritten, hpc⟩ := of_decide_eq_true hfacts
  obtain ⟨tr, hrun, hfits⟩ := Run.of_play_checked hs
  have hmissing : s.client.written ≠ [22, 3, 1] ++ [5] := by
    rw [hwritten]
    decide
  exact ⟨tr, s, hrun, fun e he => (unhurried_of_fits (hfits e he)).2, hwritten, hpc,
    bridge_progress (by decide) (by decide) hrun (fun e he => (unhurried_of_fits (hfits e he)).1)
      (fun e he => (unhurried_of_fits (hfits e he)).2) (.inl hmissing)⟩

/-! ## A deadlock -/

theorem loop_withLoop (s : Bridge) (side : Side) (l : Loop) : (s.withLoop side l).loop side = l := by
  cases side <;> rfl

theorem other_withLoop (s : Bridge) (side : Side) (l : Loop) :
    ((s.withLoop side l).loop side.other).this = (s.loop side.other).this := by
  cases side <;> rfl

theorem bridgeStep_of_loop {side : Side} (hfailed : (s.loop side).this.failed = false)
    (h : (s.loop side).step (Bridge.count side) a = some l) :
    BridgeStep s (side, a) (s.withLoop side l) := by
  simp [BridgeStep, Bridge.step, hfailed, h]

/-- The loop waits for capacity. -/
structure Waits (l : Loop) : Prop where
  sending : ∃ rest, l.this.pc = .sending rest
  window : l.out.flow.window = 0

theorem Waits.none (h : Waits l) (ha : a ≠ .fail) : l.step count a = none := by
  obtain ⟨rest, hpc⟩ := h.sending
  cases a with
  | send capacity =>
    have hguard : ¬ (0 < capacity ∧ capacity ≤ l.out.flow.window) := by
      rw [h.window]
      omega
    simp only [Loop.step, hpc]
    exact if_neg hguard
  | fail => exact absurd rfl ha
  | _ => simp [Loop.step, hpc]

theorem not_enabled_of_waits (h : ∀ side, Waits (s.loop side)) : ¬ Enabled s := by
  rintro ⟨side, a, ha, hstep⟩
  simp [Bridge.step, (h side).none ha] at hstep

/-- What reading and sending leaves as it is. -/
structure Alone (side : Side) (s s' : Bridge) : Prop where
  other : (s'.loop side.other).this = (s.loop side.other).this
  inn : (s'.loop side).inn = (s.loop side).inn
  written : (s'.loop side).this.written = (s.loop side).this.written
  readDone : (s'.loop side).this.readDone = (s.loop side).this.readDone
  failed : (s'.loop side).this.failed = (s.loop side).this.failed

theorem Alone.trans {side : Side} {s₁ s₂ s₃ : Bridge} (h : Alone side s₁ s₂) (h' : Alone side s₂ s₃) :
    Alone side s₁ s₃ :=
  ⟨h'.other.trans h.other, h'.inn.trans h.inn, h'.written.trans h.written,
    h'.readDone.trans h.readDone, h'.failed.trans h.failed⟩

/-- A step of a loop that reads or sends. -/
theorem alone_of_loop {side : Side} (hinn : l.inn = (s.loop side).inn)
    (hwritten : l.this.written = (s.loop side).this.written)
    (hdone : l.this.readDone = (s.loop side).this.readDone)
    (hfailed : l.this.failed = (s.loop side).this.failed) : Alone side s (s.withLoop side l) := by
  refine ⟨other_withLoop s side l, ?_, ?_, ?_, ?_⟩ <;> rw [loop_withLoop] <;> assumption

theorem exists_read_one (side : Side) {x : UInt8} {unread : Bytes}
    (hpc : (s.loop side).this.pc = .idle) (hopen : (s.loop side).this.readDone = false)
    (hfailed : (s.loop side).this.failed = false) (hunread : (s.loop side).this.unread = x :: unread) :
    ∃ s', BridgeStep s (side, .read 1) s' ∧ (s'.loop side).this.pc = .sending [x] ∧
      (s'.loop side).this.unread = unread ∧ (s'.loop side).out = (s.loop side).out ∧ Alone side s s' := by
  refine ⟨s.withLoop side { s.loop side with
    this := { (s.loop side).this with unread := unread, pc := .sending [x] } }, ?_, ?_, ?_, ?_, ?_⟩
  · refine bridgeStep_of_loop hfailed ?_
    simp [Loop.step, hpc, hopen, hunread]
  · rw [loop_withLoop]
  · rw [loop_withLoop]
  · rw [loop_withLoop]
  · exact alone_of_loop rfl rfl rfl rfl

theorem exists_send_one (side : Side) {x : UInt8} {n : Nat}
    (hpc : (s.loop side).this.pc = .sending [x]) (hwindow : (s.loop side).out.flow.window = n + 1)
    (hfailed : (s.loop side).this.failed = false) :
    ∃ s', BridgeStep s (side, .send 1) s' ∧ (s'.loop side).this.pc = .idle ∧
      (s'.loop side).this.unread = (s.loop side).this.unread ∧
      (s'.loop side).out.flow.window = n ∧ Alone side s s' := by
  have hone : Bridge.count side 1 1 = 1 := by cases side <;> rfl
  refine ⟨s.withLoop side { s.loop side with
    this := { (s.loop side).this with pc := .idle }
    out := { (s.loop side).out with flow := (s.loop side).out.flow.send [x] } }, ?_, ?_, ?_, ?_, ?_⟩
  · refine bridgeStep_of_loop hfailed ?_
    simp [Loop.step, hpc, hone, hwindow]
  · rw [loop_withLoop]
  · rw [loop_withLoop]
  · rw [loop_withLoop]
    simp [CreditFlow.send, hwindow]
  · exact alone_of_loop rfl rfl rfl rfl

/-- A loop with more to read than its window holds may read and send until it waits. -/
theorem exists_waits (side : Side) (n : Nat) (hwindow : (s.loop side).out.flow.window = n)
    (hpc : (s.loop side).this.pc = .idle) (hopen : (s.loop side).this.readDone = false)
    (hfailed : (s.loop side).this.failed = false) (hunread : n < (s.loop side).this.unread.length) :
    ∃ tr s', Run BridgeStep s tr s' ∧ Waits (s'.loop side) ∧ Alone side s s' ∧
      ∀ e ∈ tr, e.label.2 ≠ .fail := by
  induction n generalizing s with
  | zero =>
    obtain ⟨x, unread, hx⟩ := List.exists_cons_of_length_pos hunread
    obtain ⟨s₁, hread, hpc₁, -, hout, halone⟩ := exists_read_one side hpc hopen hfailed hx
    refine ⟨_, s₁, Run.refl.snoc hread, ⟨⟨[x], hpc₁⟩, ?_⟩, halone, ?_⟩
    · rw [hout]
      exact hwindow
    · intro e he
      rw [List.mem_singleton.mp he]
      exact nofun
  | succ n ih =>
    obtain ⟨x, unread, hx⟩ := List.exists_cons_of_length_pos (Nat.zero_lt_of_lt hunread)
    obtain ⟨s₁, hread, hpc₁, hunread₁, hout, halone₁⟩ := exists_read_one side hpc hopen hfailed hx
    obtain ⟨s₂, hsend, hpc₂, hunread₂, hwindow₂, halone₂⟩ :=
      exists_send_one side hpc₁ (hout ▸ hwindow) (halone₁.failed.trans hfailed)
    have halone := halone₁.trans halone₂
    have hlen : n < (s₂.loop side).this.unread.length := by
      rw [hunread₂, hunread₁]
      rw [hx, List.length_cons] at hunread
      omega
    obtain ⟨tr, s₃, hrun, hwaits, halone₃, hfail⟩ :=
      ih hwindow₂ hpc₂ (halone.readDone.trans hopen) (halone.failed.trans hfailed) hlen
    refine ⟨_, s₃, ((Run.refl.snoc hread).snoc hsend).trans hrun, hwaits, halone.trans halone₃, ?_⟩
    intro e he
    rcases List.mem_append.mp he with he | he
    · exact hfail e he
    · simp only [List.mem_cons, List.not_mem_nil, or_false] at he
      rcases he with rfl | rfl <;> exact nofun

/-- With the default windows, a browser and an upstream that both send 65536 bytes and read all the time:
both loops wait for capacity, and frames wait for both. -/
theorem bridge_deadlock :
    ∃ tr s, BridgeRun 65535 65535 [22] (List.replicate 65535 0) (List.replicate 65536 0) true true tr s ∧
      (∀ e ∈ tr, e.label.2 ≠ .fail) ∧ s.client.written = [] ∧ s.gateway.written = [] ∧
      s.up.flow.queue ≠ [] ∧ s.down.flow.queue ≠ [] ∧ ¬ Enabled s := by
  generalize hbrowser : List.replicate 65535 (0 : UInt8) = browser
  generalize hupstream : List.replicate 65536 (0 : UInt8) = upstream
  have hbrowser' : browser.length = 65535 := by rw [← hbrowser, List.length_replicate]
  have hupstream' : upstream.length = 65536 := by rw [← hupstream, List.length_replicate]
  -- the gateway sends what `read_sni` has read, then what the browser sends
  obtain ⟨s₁, hsend, hpc₁, hunread₁, hwindow₁, halone₁⟩ :=
    exists_send_one (s := .start 65535 65535 [22] browser upstream true true) .gateway rfl rfl rfl
  have hlen₁ : 65534 < (s₁.loop .gateway).this.unread.length := by
    rw [hunread₁]
    show 65534 < browser.length
    omega
  obtain ⟨tr₂, s₂, hrun₂, hwaits₂, halone₂, hfail₂⟩ :=
    exists_waits .gateway 65534 hwindow₁ hpc₁ halone₁.readDone halone₁.failed hlen₁
  have halone := halone₁.trans halone₂
  -- then the client sends what the upstream sends
  have hclient : (s₂.loop .client).this =
      (Bridge.start 65535 65535 [22] browser upstream true true).client := halone.other
  have hdown : (s₂.loop .client).out = ⟨.new 65535, false, false⟩ := halone.inn
  have hlen₂ : 65535 < (s₂.loop .client).this.unread.length := by
    rw [hclient]
    show 65535 < upstream.length
    omega
  obtain ⟨tr₃, s₃, hrun₃, hwaits₃, halone₃, hfail₃⟩ :=
    exists_waits .client 65535 (by rw [hdown]; rfl) (by rw [hclient]; rfl) (by rw [hclient]; rfl)
      (by rw [hclient]; rfl) hlen₂
  have hgateway : s₃.gateway = s₂.gateway := halone₃.other
  have hup : s₃.up = s₂.up := halone₃.inn
  have hwaits : ∀ side, Waits (s₃.loop side) := by
    intro side
    cases side with
    | gateway =>
      constructor
      · show ∃ rest, s₃.gateway.pc = .sending rest
        rw [hgateway]
        exact hwaits₂.sending
      · show s₃.up.flow.window = 0
        rw [hup]
        exact hwaits₂.window
    | client => exact hwaits₃
  have hrun := ((Run.refl.snoc hsend).trans hrun₂).trans hrun₃
  have hc := carries_of_run hrun
  have hholding : ∀ side, (s₃.loop side).this.holding = 0 := fun side => by
    obtain ⟨rest, hpc⟩ := (hwaits side).sending
    unfold End.holding
    rw [hpc]
  refine ⟨_, s₃, hrun, ?_, ?_, ?_, ?_, ?_, not_enabled_of_waits hwaits⟩
  · intro e he
    simp only [List.mem_append, List.mem_singleton] at he
    rcases he with he | he | rfl
    · exact hfail₃ e he
    · exact hfail₂ e he
    · exact nofun
  · exact halone₃.written.trans (congrArg End.written hclient)
  · rw [hgateway]
    exact halone.written
  · exact hc.up.queue_of_window (by decide) (hwaits .gateway).window (hholding .client)
  · exact hc.down.queue_of_window (by decide) (hwaits .client).window (hholding .gateway)

end BloomRelay.Bridging
