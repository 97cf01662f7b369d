import BloomRelay.Bridge.Mux
import BloomRelay.Bridge.Proofs.LoopProofs
import Mathlib.Algebra.Order.BigOperators.Group.Finset

/-!
# Streams whose consumers stop reading

What a stream holds of the connection's window is missing to all others. As long as the streams whose
receiving loops are stuck hold less than the whole window, every stream can send as soon as the other
loops have caught up; a single stopped consumer can take all of it.
-/

namespace BloomRelay.Bridging

open Protocol

variable {side : Side} {s s' : Mux} {a : MuxAction} {i : Nat} {tr : List (Event Mux MuxAction)}

/-! ## What a step does -/

/-- What an action does to the window of the connection and to its stream. -/
inductive ChannelMoves (w : Nat) (c : Channel) : Nat → Channel → Prop where
  | quiet (c' : Channel) (hflow : c'.flow = c.flow) : ChannelMoves w c w c'
  | send (n : Nat) (hwindow : n ≤ w) (hflow : n ≤ c.flow.window) (hpending : n ≤ c.pending.length) :
      ChannelMoves w c (w - n)
        { c with pending := c.pending.drop n, flow := c.flow.send (c.pending.take n) }
  | receive (n : Nat) (hn : n ≤ c.flow.queue.length) :
      ChannelMoves w c w { c with flow := c.flow.take n }
  | write (hwritable : c.writable = true) (hheld : 0 < c.flow.held) :
      ChannelMoves w c (w + c.flow.held) c.written

inductive MuxMoves (s : Mux) : MuxAction → Mux → Prop where
  | create (i : Nat) (hi : i ∉ s.ids) :
      MuxMoves s (.create i) ({ s with ids := insert i s.ids }.setChannel i .new)
  | close (i : Nat) (hi : i ∈ s.ids) :
      MuxMoves s (.close i)
        { s with
          window := s.window + (s.channels i).flow.outstanding
          ids := s.ids.erase i }
  | channel (a : MuxAction) (i w : Nat) (c : Channel) (hi : i ∈ s.ids)
      (hm : ChannelMoves s.window (s.channels i) w c)
      (hstopped : a ≠ .resume i → (s.channels i).reading = false →
        c.reading = false ∧ c.room ≤ (s.channels i).room) :
      MuxMoves s a ({ s with window := w }.setChannel i c)

theorem muxMoves_of_step (h : MuxStep side s a s') : MuxMoves s a s' := by
  cases a with
  | create i =>
    simp only [MuxStep, Mux.step] at h
    split_ifs at h with hi
    cases h
    exact .create i hi
  | close i =>
    simp only [MuxStep, Mux.step] at h
    split_ifs at h with hi
    cases h
    exact .close i hi
  | offer i bytes =>
    simp only [MuxStep, Mux.step] at h
    split_ifs at h with hi
    cases h
    exact .channel _ i s.window _ hi (.quiet _ rfl) fun _ hreading => ⟨hreading, le_rfl⟩
  | send i capacity =>
    simp only [MuxStep, Mux.step] at h
    split_ifs at h with hguard
    obtain ⟨hi, -, -, hwindow, hflow⟩ := hguard
    cases h
    have hcapacity := (chunked_count side).le_capacity capacity (s.channels i).pending.length
    refine .channel _ i _ _ hi (.send _ (hcapacity.trans hwindow) (hcapacity.trans hflow) ?_)
      fun _ hreading => ⟨hreading, le_rfl⟩
    exact (chunked_count side).le_length capacity (s.channels i).pending.length
  | receive i n =>
    simp only [MuxStep, Mux.step] at h
    split_ifs at h with hguard
    obtain ⟨hi, -, -, -, hn⟩ := hguard
    cases h
    exact .channel _ i s.window _ hi (.receive n hn) fun _ hreading => ⟨hreading, le_rfl⟩
  | write i =>
    simp only [MuxStep, Mux.step] at h
    split_ifs at h with hguard
    obtain ⟨hi, hwritable, hheld⟩ := hguard
    cases h
    refine .channel _ i _ _ hi (.write hwritable hheld) fun _ hreading => ⟨hreading, ?_⟩
    simp only [Channel.written, hreading]
    exact Nat.sub_le _ _
  | stop i room =>
    simp only [MuxStep, Mux.step] at h
    split_ifs at h with hguard
    obtain ⟨hi, -, hreading⟩ := hguard
    cases h
    refine .channel _ i s.window _ hi (.quiet _ rfl) fun _ hstopped => ?_
    rw [hreading] at hstopped
    cases hstopped
  | resume i =>
    simp only [MuxStep, Mux.step] at h
    split_ifs at h with hi
    cases h
    exact .channel _ i s.window _ hi (.quiet _ rfl) fun hresume => absurd rfl hresume
  | block i =>
    simp only [MuxStep, Mux.step] at h
    split_ifs at h with hguard
    cases h
    exact .channel _ i s.window _ hguard.1 (.quiet _ rfl) fun _ hreading => ⟨hreading, le_rfl⟩
  | unblock i =>
    simp only [MuxStep, Mux.step] at h
    split_ifs at h with hi
    cases h
    exact .channel _ i s.window _ hi (.quiet _ rfl) fun _ hreading => ⟨hreading, le_rfl⟩

/-! ## Nothing of a window is lost -/

section Channel

variable {w w' : Nat} {c c' : Channel}

theorem ChannelMoves.total (h : ChannelMoves w c w' c') :
    w' + c'.flow.outstanding = w + c.flow.outstanding := by
  cases h with
  | quiet _ hflow => rw [hflow]
  | send n hwindow hflow hpending =>
    rw [CreditFlow.outstanding_send, List.length_take]
    omega
  | receive n hn => rw [CreditFlow.outstanding_take hn]
  | write =>
    have hrelease := CreditFlow.outstanding_release (f := c.flow) le_rfl
    simp only [Channel.written]
    omega

theorem ChannelMoves.credit (h : ChannelMoves w c w' c') : c'.flow.credit = c.flow.credit := by
  cases h with
  | quiet _ hflow => rw [hflow]
  | send n hwindow hflow hpending =>
    refine CreditFlow.credit_send ?_
    rw [List.length_take]
    omega
  | receive n hn => exact CreditFlow.credit_take hn
  | write => exact CreditFlow.credit_release le_rfl

end Channel

/-- What the streams hold of the connection's window. -/
def Mux.used (s : Mux) : Nat := ∑ i ∈ s.ids, (s.channels i).flow.outstanding

theorem channels_setChannel (s : Mux) (i j : Nat) (c : Channel) :
    (s.setChannel i c).channels j = if j = i then c else s.channels j := by
  by_cases hj : j = i
  · simp [Mux.setChannel, hj]
  · simp [Mux.setChannel, hj]

/-- The streams other than `i` hold what they held. -/
theorem sum_setChannel_of_notMem {c : Channel} {ids : Finset Nat} (hi : i ∉ ids) :
    ∑ j ∈ ids, ((s.setChannel i c).channels j).flow.outstanding =
      ∑ j ∈ ids, (s.channels j).flow.outstanding := by
  refine Finset.sum_congr rfl fun j hj => ?_
  rw [channels_setChannel, if_neg (ne_of_mem_of_not_mem hj hi)]

theorem used_setChannel {c : Channel} (hi : i ∈ s.ids) :
    (s.setChannel i c).used + (s.channels i).flow.outstanding = s.used + c.flow.outstanding := by
  have hleft := Finset.add_sum_erase s.ids
    (fun j => ((s.setChannel i c).channels j).flow.outstanding) hi
  have hright := Finset.add_sum_erase s.ids (fun j => (s.channels j).flow.outstanding) hi
  simp only [sum_setChannel_of_notMem (Finset.notMem_erase i s.ids)] at hleft
  rw [channels_setChannel, if_pos rfl] at hleft
  show ∑ j ∈ s.ids, _ + _ = _
  rw [← hleft, Mux.used, ← hright]
  omega

/-- Each byte of the connection's window is in it or held by a stream, and the same for each stream. -/
structure Balanced (s : Mux) : Prop where
  connection : s.window + s.used = defaultWindow
  streams : ∀ i ∈ s.ids, (s.channels i).flow.credit = defaultWindow

theorem Balanced.step (h : Balanced s) (hm : MuxMoves s a s') : Balanced s' := by
  have hconnection := h.connection
  cases hm with
  | create i hi =>
    constructor
    · show s.window + ∑ j ∈ insert i s.ids, _ = _
      rw [Finset.sum_insert hi, channels_setChannel, if_pos rfl]
      have hsame := sum_setChannel_of_notMem (s := { s with ids := insert i s.ids }) (c := .new) hi
      rw [hsame]
      exact (congrArg (s.window + ·) (Nat.zero_add _)).trans hconnection
    · intro j hj
      rw [channels_setChannel]
      split_ifs with hji
      · rfl
      · exact h.streams j (Finset.mem_of_mem_insert_of_ne hj hji)
  | close i hi =>
    constructor
    · have herase := Finset.add_sum_erase s.ids (fun j => (s.channels j).flow.outstanding) hi
      show s.window + (s.channels i).flow.outstanding + ∑ j ∈ s.ids.erase i, _ = _
      rw [Mux.used, ← herase] at hconnection
      rw [Nat.add_assoc]
      exact hconnection
    · intro j hj
      exact h.streams j (Finset.mem_of_mem_erase hj)
  | channel a i w c hi hc hreading =>
    constructor
    · have hused := used_setChannel (s := { s with window := w }) (c := c) hi
      have htotal := hc.total
      have hsame : ({ s with window := w } : Mux).used = s.used := rfl
      show w + _ = _
      rw [hsame] at hused
      simp only at hused
      omega
    · intro j hj
      rw [channels_setChannel]
      split_ifs with hji
      · exact hc.credit.trans (h.streams i hi)
      · exact h.streams j hj

theorem balanced_of_run (h : MuxRun side tr s) : Balanced s := by
  refine h.state_invariant Balanced ⟨rfl, fun i hi => absurd hi (Finset.notMem_empty i)⟩ ?_
  exact fun _ _ _ hb hs => hb.step (muxMoves_of_step hs)

/-! ## Loops that are not stuck catch up -/

theorem canSend_of_window (hi : i ∈ s.ids) (hpending : (s.channels i).pending ≠ [])
    (hwindow : 0 < s.window) (hflow : 0 < (s.channels i).flow.window) : s.CanSend side i := by
  have hguard : i ∈ s.ids ∧ (s.channels i).pending ≠ [] ∧ 0 < 1 ∧ 1 ≤ s.window ∧
      1 ≤ (s.channels i).flow.window := ⟨hi, hpending, Nat.one_pos, hwindow, hflow⟩
  refine ⟨1, ?_⟩
  simp only [Mux.step, if_pos hguard, Option.isSome_some]

theorem window_pos_of_canSend (h : s.CanSend side i) : 0 < s.window := by
  obtain ⟨capacity, h⟩ := h
  simp only [Mux.step] at h
  split_ifs at h with hguard
  · obtain ⟨-, -, hpos, hwindow, -⟩ := hguard
    exact hpos.trans_le hwindow
  · cases h

theorem active_iff {c : Channel} : c.active = true ↔ c.reading = true ∧ c.waits = false := by
  simp [Channel.active]

/-- A receiving loop that is not stuck takes a frame, or has written one. -/
def CatchesUp (e : Event Mux MuxAction) : Prop :=
  ∃ i, (e.src.channels i).active = true ∧ (e.label = .write i ∨ ∃ n, e.label = .receive i n)

/-- Only the flows of the streams `t` have changed. -/
structure Kept (t : Finset Nat) (s s' : Mux) : Prop where
  ids : s'.ids = s.ids
  pending : ∀ j, (s'.channels j).pending = (s.channels j).pending
  active : ∀ j, (s'.channels j).active = (s.channels j).active
  flow : ∀ j ∉ t, (s'.channels j).flow = (s.channels j).flow

theorem Kept.refl (t : Finset Nat) (s : Mux) : Kept t s s :=
  ⟨rfl, fun _ => rfl, fun _ => rfl, fun _ _ => rfl⟩

theorem Kept.trans {t : Finset Nat} {s₁ s₂ s₃ : Mux} (h : Kept t s₁ s₂) (h' : Kept t s₂ s₃) :
    Kept t s₁ s₃ :=
  ⟨h'.ids.trans h.ids, fun j => (h'.pending j).trans (h.pending j),
    fun j => (h'.active j).trans (h.active j), fun j hj => (h'.flow j hj).trans (h.flow j hj)⟩

theorem Kept.mono {t t' : Finset Nat} (h : Kept t s s') (hsub : t ⊆ t') : Kept t' s s' :=
  ⟨h.ids, h.pending, h.active, fun j hj => h.flow j fun hmem => hj (hsub hmem)⟩

theorem kept_setChannel (w : Nat) {c : Channel} (hpending : c.pending = (s.channels i).pending)
    (hactive : c.active = (s.channels i).active) :
    Kept {i} s ({ s with window := w }.setChannel i c) := by
  refine ⟨rfl, fun j => ?_, fun j => ?_, fun j hj => ?_⟩
  · rw [channels_setChannel]
    split_ifs with hji
    · rw [hpending, hji]
    · rfl
  · rw [channels_setChannel]
    split_ifs with hji
    · rw [hactive, hji]
    · rfl
  · rw [channels_setChannel, if_neg fun hji => hj (Finset.mem_singleton.mpr hji)]

/-- The receiving loop writes the frame it has, if it has one. -/
theorem exists_written (side : Side) (hi : i ∈ s.ids) (hactive : (s.channels i).active = true) :
    ∃ tr s', Run (MuxStep side) s tr s' ∧ Kept {i} s s' ∧ (s'.channels i).flow.held = 0 ∧
      (s'.channels i).flow.queue = (s.channels i).flow.queue ∧ ∀ e ∈ tr, CatchesUp e := by
  by_cases hheld : (s.channels i).flow.held = 0
  · exact ⟨[], s, .refl, .refl _ s, hheld, rfl, fun e he => absurd he List.not_mem_nil⟩
  · have hreading : (s.channels i).reading = true := (active_iff.mp hactive).1
    have hguard : i ∈ s.ids ∧ (s.channels i).writable = true ∧ 0 < (s.channels i).flow.held :=
      ⟨hi, Bool.or_eq_true_iff.mpr (.inl hreading), Nat.pos_of_ne_zero hheld⟩
    have hstep : MuxStep side s (.write i) _ := if_pos hguard
    refine ⟨_, _, Run.refl.snoc hstep, kept_setChannel _ rfl rfl, ?_, ?_, fun e he => ?_⟩
    · rw [channels_setChannel, if_pos rfl]
      exact Nat.sub_self _
    · rw [channels_setChannel, if_pos rfl]
      rfl
    · rw [List.mem_singleton.mp he]
      exact ⟨i, hactive, .inl rfl⟩

/-- The receiving loop takes all that waits for it. -/
theorem exists_taken (side : Side) (hi : i ∈ s.ids) (hactive : (s.channels i).active = true)
    (hheld : (s.channels i).flow.held = 0) :
    ∃ tr s', Run (MuxStep side) s tr s' ∧ Kept {i} s s' ∧ (s'.channels i).flow.queue = [] ∧
      ∀ e ∈ tr, CatchesUp e := by
  by_cases hqueue : (s.channels i).flow.queue = []
  · exact ⟨[], s, .refl, .refl _ s, hqueue, fun e he => absurd he List.not_mem_nil⟩
  · have hwaits : (s.channels i).waits = false := (active_iff.mp hactive).2
    have hguard : i ∈ s.ids ∧ (s.channels i).waits = false ∧ (s.channels i).flow.held = 0 ∧
        0 < (s.channels i).flow.queue.length ∧
        (s.channels i).flow.queue.length ≤ (s.channels i).flow.queue.length :=
      ⟨hi, hwaits, hheld, List.length_pos_iff.mpr hqueue, le_rfl⟩
    have hstep : MuxStep side s (.receive i (s.channels i).flow.queue.length) _ := if_pos hguard
    refine ⟨_, _, Run.refl.snoc hstep, kept_setChannel s.window rfl rfl, ?_, fun e he => ?_⟩
    · rw [channels_setChannel, if_pos rfl]
      exact List.drop_length
    · rw [List.mem_singleton.mp he]
      exact ⟨i, hactive, .inr ⟨_, rfl⟩⟩

theorem catchesUp_append {tr tr' : List (Event Mux MuxAction)} (h : ∀ e ∈ tr, CatchesUp e)
    (h' : ∀ e ∈ tr', CatchesUp e) : ∀ e ∈ tr ++ tr', CatchesUp e := by
  intro e he
  rcases List.mem_append.mp he with he | he
  · exact h e he
  · exact h' e he

/-- A stream whose loop is not stuck is emptied: its frame is written, the rest taken and written. -/
theorem exists_emptied (side : Side) (hi : i ∈ s.ids) (hactive : (s.channels i).active = true) :
    ∃ tr s', Run (MuxStep side) s tr s' ∧ Kept {i} s s' ∧ (s'.channels i).flow.outstanding = 0 ∧
      ∀ e ∈ tr, CatchesUp e := by
  obtain ⟨tr₁, s₁, hrun₁, hkept₁, hheld₁, -, hcatch₁⟩ := exists_written side hi hactive
  obtain ⟨tr₂, s₂, hrun₂, hkept₂, hqueue₂, hcatch₂⟩ :=
    exists_taken side (hkept₁.ids ▸ hi) ((hkept₁.active i).trans hactive) hheld₁
  have hkept := hkept₁.trans hkept₂
  obtain ⟨tr₃, s₃, hrun₃, hkept₃, hheld₃, hqueue₃, hcatch₃⟩ :=
    exists_written side (hkept.ids ▸ hi) ((hkept.active i).trans hactive)
  refine ⟨_, s₃, (hrun₁.trans hrun₂).trans hrun₃, hkept.trans hkept₃, ?_,
    catchesUp_append hcatch₃ (catchesUp_append hcatch₂ hcatch₁)⟩
  rw [CreditFlow.outstanding, hqueue₃, hqueue₂, hheld₃, List.length_nil]

/-- All streams of a set whose loops are not stuck are emptied. -/
theorem exists_all_emptied (side : Side) (t : Finset Nat)
    (ht : ∀ i ∈ t, i ∈ s.ids ∧ (s.channels i).active = true) :
    ∃ tr s', Run (MuxStep side) s tr s' ∧ Kept t s s' ∧
      (∀ i ∈ t, (s'.channels i).flow.outstanding = 0) ∧ ∀ e ∈ tr, CatchesUp e := by
  induction t using Finset.induction_on with
  | empty =>
    exact ⟨[], s, .refl, .refl _ s, fun i hi => absurd hi (Finset.notMem_empty i),
      fun e he => absurd he List.not_mem_nil⟩
  | insert i t hit ih =>
    obtain ⟨tr, s₁, hrun, hkept, hempty, hcatch⟩ :=
      ih fun j hj => ht j (Finset.mem_insert_of_mem hj)
    obtain ⟨hi, hactive⟩ := ht i (Finset.mem_insert_self i t)
    obtain ⟨tr', s₂, hrun', hkept', hempty', hcatch'⟩ :=
      exists_emptied side (hkept.ids ▸ hi) ((hkept.active i).trans hactive)
    have hsub : {i} ⊆ insert i t := Finset.singleton_subset_iff.mpr (Finset.mem_insert_self i t)
    refine ⟨tr' ++ tr, s₂, hrun.trans hrun', (hkept.mono (Finset.subset_insert i t)).trans
      (hkept'.mono hsub), fun j hj => ?_, catchesUp_append hcatch' hcatch⟩
    by_cases hji : j = i
    · exact hji ▸ hempty'
    · rw [hkept'.flow j fun hmem => hji (Finset.mem_singleton.mp hmem)]
      exact hempty j (Finset.mem_of_mem_insert_of_ne hj hji)

/-- With the streams of all other loops emptied, only the stuck ones hold anything. -/
theorem used_eq_stalled
    (hkept : Kept (s.ids.filter fun i => (s.channels i).active = true) s s')
    (hempty : ∀ i ∈ s.ids.filter (fun i => (s.channels i).active = true),
      (s'.channels i).flow.outstanding = 0) : s'.used = s.stalled := by
  have hstuck : s.ids.filter (fun i => ¬ (s.channels i).active = true) =
      s.ids.filter fun i => (s.channels i).active = false := by simp only [Bool.not_eq_true]
  rw [Mux.used, hkept.ids, ← Finset.sum_filter_add_sum_filter_not s.ids
    (fun i => (s.channels i).active = true), Finset.sum_eq_zero hempty, Nat.zero_add, hstuck]
  refine Finset.sum_congr rfl fun j hj => ?_
  have hj' : (s.channels j).active = false := (Finset.mem_filter.mp hj).2
  rw [hkept.flow j fun hmem => ?_]
  rw [(Finset.mem_filter.mp hmem).2] at hj'
  cases hj'

/-- A stream never holds more than all streams together. -/
theorem outstanding_le_used (hi : i ∈ s.ids) : (s.channels i).flow.outstanding ≤ s.used :=
  Finset.single_le_sum (f := fun j => (s.channels j).flow.outstanding) (fun _ _ => Nat.zero_le _) hi

/-- Every stream can send what it has to send, once the loops that are not stuck have caught up, as long
as the streams of the stuck ones do not hold the whole window of the connection. -/
theorem streams_isolated (hrun : MuxRun side tr s) (hstalled : s.stalled < defaultWindow) (hi : i ∈ s.ids)
    (hpending : (s.channels i).pending ≠ []) :
    ∃ tr' s', Run (MuxStep side) s tr' s' ∧ (∀ e ∈ tr', CatchesUp e) ∧ s'.CanSend side i := by
  obtain ⟨tr', s', hrun', hkept, hempty, hcatch⟩ := exists_all_emptied side
    (s.ids.filter fun i => (s.channels i).active = true) fun j hj => Finset.mem_filter.mp hj
  have hbalanced := balanced_of_run (hrun.trans hrun')
  have hused := used_eq_stalled hkept hempty
  have hi' : i ∈ s'.ids := hkept.ids ▸ hi
  have hwindow : 0 < s'.window := by
    have hconnection := hbalanced.connection
    omega
  have hflow : 0 < (s'.channels i).flow.window := by
    have hcredit := hbalanced.streams i hi'
    have hle := outstanding_le_used hi'
    rw [CreditFlow.credit] at hcredit
    omega
  refine ⟨tr', s', hrun', hcatch, canSend_of_window hi' ?_ hwindow hflow⟩
  rw [hkept.pending]
  exact hpending

/-- A browser has stopped reading with two bytes on its way, the loop of another waits for capacity with
one, and there is an event to send. -/
theorem streams_isolated_stalled :
    ∃ tr s, MuxRun .gateway tr s ∧ (s.channels 1).reading = false ∧ (s.channels 2).waits = true ∧
      s.stalled = 3 ∧ ∃ tr' s', Run (MuxStep .gateway) s tr' s' ∧ (∀ e ∈ tr', CatchesUp e) ∧
        s'.CanSend .gateway controlId := by
  have hplay : (Run.play (Mux.step .gateway) .start [.create controlId, .create 1, .create 2,
      .offer 1 [1, 2], .send 1 16384, .stop 1 0, .block 2, .offer 2 [3], .send 2 16384,
      .offer controlId [4]]).any (fun s => (s.channels 1).reading = false ∧
        (s.channels 2).waits = true ∧ s.stalled = 3 ∧ controlId ∈ s.ids ∧
          (s.channels controlId).pending ≠ []) = true := by decide +kernel
  obtain ⟨s, hs, hfacts⟩ := (Option.any_eq_true _ _).mp hplay
  obtain ⟨hstopped, hwaits, hstalled, hi, hpending⟩ := of_decide_eq_true hfacts
  obtain ⟨tr, hrun, -⟩ := Run.of_play hs
  refine ⟨tr, s, hrun, hstopped, hwaits, hstalled, streams_isolated hrun ?_ hi hpending⟩
  rw [hstalled]
  decide

/-! ## One stopped consumer holds the whole window -/

/-- The consumer of stream `i` has stopped, the buffers of its socket are full, and its stream holds the
whole window of the connection. -/
structure Hoards (i : Nat) (s : Mux) : Prop where
  mem : i ∈ s.ids
  stopped : (s.channels i).reading = false
  full : (s.channels i).room = 0
  outstanding : (s.channels i).flow.outstanding = defaultWindow

theorem Hoards.window_eq_zero (h : Hoards i s) (hb : Balanced s) : s.window = 0 := by
  have hle := outstanding_le_used h.mem
  have hconnection := hb.connection
  rw [h.outstanding] at hle
  omega

/-- With full buffers nothing is written. -/
theorem Hoards.not_writable (h : Hoards i s) (hheld : 0 < (s.channels i).flow.held) :
    (s.channels i).writable = false := by
  simp only [Channel.writable, h.stopped, h.full, Bool.false_or, decide_eq_false_iff_not]
  omega

/-- Until the consumer reads again or its stream is over, it stays so. -/
theorem Hoards.step (h : Hoards i s) (hb : Balanced s) (hm : MuxMoves s a s') (hresume : a ≠ .resume i)
    (hclose : a ≠ .close i) : Hoards i s' := by
  cases hm with
  | create j hj =>
    have hij : i ≠ j := ne_of_mem_of_not_mem h.mem hj
    refine ⟨Finset.mem_insert_of_mem h.mem, ?_, ?_, ?_⟩ <;> rw [channels_setChannel, if_neg hij]
    · exact h.stopped
    · exact h.full
    · exact h.outstanding
  | close j hj =>
    have hij : i ≠ j := fun hij => hclose (hij ▸ rfl)
    exact ⟨Finset.mem_erase_of_ne_of_mem hij h.mem, h.stopped, h.full, h.outstanding⟩
  | channel a j w c hj hmoves hstopped =>
    by_cases hij : i = j
    · subst hij
      obtain ⟨hreading, hroom⟩ := hstopped hresume h.stopped
      rw [h.full] at hroom
      refine ⟨h.mem, ?_, ?_, ?_⟩ <;> rw [channels_setChannel, if_pos rfl]
      · exact hreading
      · exact Nat.le_zero.mp hroom
      · have htotal := hmoves.total
        have hwindow := h.window_eq_zero hb
        have hsame : w = s.window := by
          cases hmoves with
          | quiet => rfl
          | receive => rfl
          | send n hn => omega
          | write hwritable hheld =>
            rw [h.not_writable hheld] at hwritable
            cases hwritable
        rw [← h.outstanding]
        omega
    · refine ⟨h.mem, ?_, ?_, ?_⟩ <;> rw [channels_setChannel, if_neg hij]
      · exact h.stopped
      · exact h.full
      · exact h.outstanding

theorem Hoards.not_canSend (h : Hoards i s) (hb : Balanced s) (hrun : Run (MuxStep side) s tr s')
    (hquiet : ∀ e ∈ tr, e.label ≠ .resume i ∧ e.label ≠ .close i) (j : Nat) : ¬ s'.CanSend side j := by
  have hinv : (∀ e ∈ tr, e.label ≠ .resume i ∧ e.label ≠ .close i) → Hoards i s' ∧ Balanced s' := by
    refine hrun.invariant
      (fun tr s' => (∀ e ∈ tr, e.label ≠ .resume i ∧ e.label ≠ .close i) → Hoards i s' ∧ Balanced s')
      (fun _ => ⟨h, hb⟩) ?_
    intro tr t a u _ ih hs hquiet
    obtain ⟨hhoards, hbalanced⟩ := ih fun e he => hquiet e (List.mem_cons_of_mem _ he)
    obtain ⟨hresume, hclose⟩ := hquiet _ List.mem_cons_self
    have hm := muxMoves_of_step hs
    exact ⟨hhoards.step hbalanced hm hresume hclose, hbalanced.step hm⟩
  intro hsend
  obtain ⟨hhoards, hbalanced⟩ := hinv hquiet
  have hpos := window_pos_of_canSend hsend
  rw [hhoards.window_eq_zero hbalanced] at hpos
  exact absurd hpos (lt_irrefl 0)

/-- One round of the sending loop with a capacity of one byte. -/
theorem send_one (side : Side) (hi : i ∈ s.ids) (hpending : 0 < (s.channels i).pending.length)
    (hwindow : 0 < s.window) (hflow : 0 < (s.channels i).flow.window) :
    MuxStep side s (.send i 1)
      ({ s with window := s.window - 1 }.setChannel i
        { s.channels i with
          pending := (s.channels i).pending.drop 1
          flow := (s.channels i).flow.send ((s.channels i).pending.take 1) }) := by
  have hguard : i ∈ s.ids ∧ (s.channels i).pending ≠ [] ∧ 0 < 1 ∧ 1 ≤ s.window ∧
      1 ≤ (s.channels i).flow.window :=
    ⟨hi, List.length_pos_iff.mp hpending, Nat.one_pos, hwindow, hflow⟩
  have hcount : Bridge.count side 1 (s.channels i).pending.length = 1 := by
    cases side <;> simp only [Bridge.count, sendDataCount, sendBoundedCount] <;> omega
  simp only [MuxStep, Mux.step, if_pos hguard, hcount]

/-- Nothing was sent on the stream that its receiving loop has not written, its consumer has stopped, and
the buffers of the socket take `room` more bytes. -/
structure Buffers (i room : Nat) (s : Mux) : Prop where
  mem : i ∈ s.ids
  stopped : (s.channels i).reading = false
  waits : (s.channels i).waits = false
  room : (s.channels i).room = room
  flow : (s.channels i).flow = .new defaultWindow
  window : s.window = defaultWindow

/-- A byte is sent, received and written to the buffers of the socket. -/
theorem Buffers.exists_forwarded (side : Side) {room : Nat} (h : Buffers i (room + 1) s)
    (hpending : 0 < (s.channels i).pending.length) :
    ∃ tr s', Run (MuxStep side) s tr s' ∧ s'.ids = s.ids ∧ Buffers i room s' ∧
      (s'.channels i).pending = (s.channels i).pending.drop 1 ∧
      ∀ j ≠ i, s'.channels j = s.channels j := by
  obtain ⟨hmem, hstopped, hwaits, hroom, hflow, hwindow⟩ := h
  obtain ⟨b, rest, hcons⟩ := List.exists_cons_of_length_pos hpending
  have hsend := send_one side hmem hpending (by rw [hwindow]; decide) (by rw [hflow]; decide)
  generalize hs₁ : ({ s with window := s.window - 1 } : Mux).setChannel i _ = s₁ at hsend
  have hc₁ : s₁.channels i = ⟨rest, ⟨defaultWindow - 1, [b], 0⟩, false, room + 1, false⟩ := by
    rw [← hs₁, channels_setChannel, if_pos rfl, hcons, hflow]
    simp only [hstopped, hroom, hwaits]
    rfl
  have hmem₁ : i ∈ s₁.ids := by
    rw [← hs₁]
    exact hmem
  have hreceive : MuxStep side s₁ (.receive i 1)
      (s₁.setChannel i { s₁.channels i with flow := (s₁.channels i).flow.take 1 }) := by
    have hguard : i ∈ s₁.ids ∧ (s₁.channels i).waits = false ∧ (s₁.channels i).flow.held = 0 ∧ 0 < 1 ∧
        1 ≤ (s₁.channels i).flow.queue.length := by
      rw [hc₁]
      exact ⟨hmem₁, rfl, rfl, Nat.one_pos, le_rfl⟩
    exact if_pos hguard
  generalize hs₂ : s₁.setChannel i _ = s₂ at hreceive
  have hc₂ : s₂.channels i = ⟨rest, ⟨defaultWindow - 1, [], 1⟩, false, room + 1, false⟩ := by
    rw [← hs₂, channels_setChannel, if_pos rfl, hc₁]
    rfl
  have hmem₂ : i ∈ s₂.ids := by
    rw [← hs₂]
    exact hmem₁
  have hwrite : MuxStep side s₂ (.write i) ({ s₂ with window := s₂.window + 1 }.setChannel i
      ⟨rest, .new defaultWindow, false, room, false⟩) := by
    have hguard : i ∈ s₂.ids ∧ (s₂.channels i).writable = true ∧ 0 < (s₂.channels i).flow.held := by
      rw [hc₂]
      refine ⟨hmem₂, ?_, Nat.one_pos⟩
      simp [Channel.writable]
    refine (if_pos hguard).trans ?_
    rw [hc₂]
    rfl
  have hwindow₂ : s₂.window + 1 = defaultWindow := by
    rw [← hs₂, ← hs₁]
    show s.window - 1 + 1 = defaultWindow
    rw [hwindow]
    rfl
  refine ⟨_, _, ((Run.refl.snoc hsend).snoc hreceive).snoc hwrite, ?_, ⟨hmem₂, ?_, ?_, ?_, ?_, hwindow₂⟩,
    ?_, fun j hj => ?_⟩
  · rw [← hs₂, ← hs₁]
    rfl
  · rw [channels_setChannel, if_pos rfl]
  · rw [channels_setChannel, if_pos rfl]
  · rw [channels_setChannel, if_pos rfl]
  · rw [channels_setChannel, if_pos rfl]
  · rw [channels_setChannel, if_pos rfl, hcons]
    rfl
  · rw [channels_setChannel, if_neg hj, ← hs₂, channels_setChannel, if_neg hj, ← hs₁,
      channels_setChannel, if_neg hj]

/-- The buffers of the socket are filled. -/
theorem Buffers.exists_full (side : Side) {room : Nat} (h : Buffers i room s)
    (hpending : room ≤ (s.channels i).pending.length) :
    ∃ tr s', Run (MuxStep side) s tr s' ∧ s'.ids = s.ids ∧ Buffers i 0 s' ∧
      (s'.channels i).pending = (s.channels i).pending.drop room ∧
      ∀ j ≠ i, s'.channels j = s.channels j := by
  induction room generalizing s with
  | zero => exact ⟨[], s, .refl, rfl, h, rfl, fun _ _ => rfl⟩
  | succ room ih =>
    obtain ⟨tr₁, s₁, hrun₁, hids₁, hbuffers₁, hpending₁, hothers₁⟩ :=
      h.exists_forwarded side (Nat.zero_lt_of_lt hpending)
    have hroom : room ≤ (s₁.channels i).pending.length := by
      rw [hpending₁, List.length_drop]
      omega
    obtain ⟨tr₂, s₂, hrun₂, hids₂, hbuffers₂, hpending₂, hothers₂⟩ := ih hbuffers₁ hroom
    refine ⟨_, s₂, hrun₁.trans hrun₂, hids₂.trans hids₁, hbuffers₂, ?_, fun j hj =>
      (hothers₂ j hj).trans (hothers₁ j hj)⟩
    rw [hpending₂, hpending₁, List.drop_drop, Nat.add_comm]

/-- A stream sends one byte after the other until the window of the connection is used up. -/
theorem exists_filled (side : Side) (n : Nat) (hi : i ∈ s.ids) (hwindow : s.window = n)
    (hflow : (s.channels i).flow.window = n) (hpending : n ≤ (s.channels i).pending.length) :
    ∃ tr s', Run (MuxStep side) s tr s' ∧ s'.ids = s.ids ∧
      (s'.channels i).reading = (s.channels i).reading ∧ (s'.channels i).room = (s.channels i).room ∧
      (s'.channels i).flow.window = 0 ∧ ∀ j ≠ i, s'.channels j = s.channels j := by
  induction n generalizing s with
  | zero => exact ⟨[], s, .refl, rfl, rfl, rfl, hflow, fun _ _ => rfl⟩
  | succ n ih =>
    have hlen : 0 < (s.channels i).pending.length := Nat.zero_lt_of_lt hpending
    have hstep := send_one side hi hlen (by omega) (by omega)
    generalize hs₁ : ({ s with window := s.window - 1 } : Mux).setChannel i _ = s₁ at hstep
    have hsame : s₁.channels i = { s.channels i with
        pending := (s.channels i).pending.drop 1
        flow := (s.channels i).flow.send ((s.channels i).pending.take 1) } := by
      rw [← hs₁, channels_setChannel, if_pos rfl]
    have hothers : ∀ j ≠ i, s₁.channels j = s.channels j := fun j hj => by
      rw [← hs₁, channels_setChannel, if_neg hj]
    have hids : s₁.ids = s.ids := by rw [← hs₁]; rfl
    have hwindow₁ : s₁.window = n := by
      rw [← hs₁]
      show s.window - 1 = n
      omega
    have hflow₁ : (s₁.channels i).flow.window = n := by
      rw [hsame]
      simp only [CreditFlow.send, List.length_take]
      omega
    have hpending₁ : n ≤ (s₁.channels i).pending.length := by
      rw [hsame]
      simp only [List.length_drop]
      omega
    obtain ⟨tr, s', hrun, hids', hreading', hroom', hflow', hothers'⟩ :=
      ih (hids ▸ hi) hwindow₁ hflow₁ hpending₁
    refine ⟨_, s', (Run.refl.snoc hstep).trans hrun, hids'.trans hids, ?_, ?_, hflow', fun j hj => ?_⟩
    · rw [hreading', hsame]
    · rw [hroom', hsame]
    · exact (hothers' j hj).trans (hothers j hj)

/-- A browser offers bytes to its stream, an event waits on the control stream, and the local socket of
the browser's stream is not read any more. -/
theorem exists_stopped (room : Nat) (bytes : List UInt8) :
    ∃ tr s, MuxRun .gateway tr s ∧ (∃ e ∈ tr, e.label = .stop 1 room) ∧ controlId ∈ s.ids ∧
      s.channels controlId = { Channel.new with pending := [1] } ∧ Buffers 1 room s ∧
      (s.channels 1).pending = bytes := by
  have hplay : ∃ s, Run.play (Mux.step .gateway) .start [.create controlId, .create 1,
      .offer controlId [1], .offer 1 bytes] = some s ∧ s.ids = {1, controlId} ∧
        s.window = defaultWindow ∧ s.channels controlId = { Channel.new with pending := [1] } ∧
        s.channels 1 = { Channel.new with pending := bytes } := by
    refine ⟨_, rfl, ?_⟩
    refine ⟨rfl, rfl, ?_, ?_⟩ <;> rfl
  obtain ⟨s, hs, hids, hwindow, hcontrol, hone⟩ := hplay
  obtain ⟨tr, hrun, -⟩ := Run.of_play hs
  have hmem : 1 ∈ s.ids := by
    rw [hids]
    decide
  have hstop : MuxStep .gateway s (.stop 1 room)
      (s.setChannel 1 { Channel.new with pending := bytes, reading := false, room := room }) := by
    have hguard : 1 ∈ s.ids ∧ 1 ≠ controlId ∧ (s.channels 1).reading = true := by
      rw [hone]
      exact ⟨hmem, by decide, rfl⟩
    refine (if_pos hguard).trans ?_
    rw [hone]
  generalize hs₁ : s.setChannel 1 _ = s₁ at hstop
  have hone₁ : s₁.channels 1 = { Channel.new with pending := bytes, reading := false, room := room } := by
    rw [← hs₁, channels_setChannel, if_pos rfl]
  refine ⟨_, s₁, hrun.snoc hstop, ⟨_, List.mem_cons_self, rfl⟩, ?_, ?_,
    ⟨hs₁ ▸ hmem, congrArg Channel.reading hone₁, congrArg Channel.waits hone₁,
      congrArg Channel.room hone₁, congrArg Channel.flow hone₁, hs₁ ▸ hwindow⟩,
    congrArg Channel.pending hone₁⟩
  · rw [← hs₁]
    show controlId ∈ s.ids
    rw [hids]
    decide
  · rw [← hs₁, channels_setChannel, if_neg (by decide), hcontrol]

/-- The local socket of a stream is not read any more while the stream has 65535 bytes more to send than
the socket's buffers take: they take the whole window, and from then on no event can be sent, however
long the client reads them, until the socket is read again or its stream is over. -/
theorem exists_starved (room : Nat) :
    ∃ tr s, MuxRun .gateway tr s ∧ (∃ e ∈ tr, e.label = .stop 1 room) ∧
      (s.channels 1).reading = false ∧ (s.channels 1).room = 0 ∧ controlId ∈ s.ids ∧
      (s.channels controlId).pending ≠ [] ∧ (s.channels controlId).active = true ∧
      (s.channels controlId).flow.outstanding = 0 ∧
      ∀ tr' s', Run (MuxStep .gateway) s tr' s' →
        (∀ e ∈ tr', e.label ≠ .resume 1 ∧ e.label ≠ .close 1) → ¬ s'.CanSend .gateway controlId := by
  obtain ⟨tr₁, s₁, hrun₁, ⟨e, he, hstop⟩, hevents, hcontrol₁, hbuffers, hpending₁⟩ :=
    exists_stopped room (List.replicate (room + defaultWindow) 0)
  have hlen : (s₁.channels 1).pending.length = room + defaultWindow := by
    rw [hpending₁, List.length_replicate]
  -- the buffers first, then the window
  obtain ⟨tr₂, s₂, hrun₂, hids₂, hbuffers₂, hpending₂, hothers₂⟩ :=
    hbuffers.exists_full .gateway (hlen ▸ Nat.le_add_right _ _)
  have hrest : defaultWindow ≤ (s₂.channels 1).pending.length := by
    rw [hpending₂, List.length_drop, hlen, Nat.add_sub_cancel_left]
  obtain ⟨tr₃, s₃, hrun₃, hids₃, hreading₃, hroom₃, hflow₃, hothers₃⟩ :=
    exists_filled .gateway defaultWindow hbuffers₂.mem hbuffers₂.window (by rw [hbuffers₂.flow]; rfl) hrest
  have hall : MuxRun .gateway (tr₃ ++ (tr₂ ++ tr₁)) s₃ := (hrun₁.trans hrun₂).trans hrun₃
  have hbalanced := balanced_of_run hall
  have hmem₃ : 1 ∈ s₃.ids := hids₃ ▸ hbuffers₂.mem
  have hcontrol : s₃.channels controlId = { Channel.new with pending := [1] } := by
    rw [hothers₃ controlId (by decide), hothers₂ controlId (by decide), hcontrol₁]
  have hhoards : Hoards 1 s₃ := by
    refine ⟨hmem₃, hreading₃.trans hbuffers₂.stopped, hroom₃.trans hbuffers₂.room, ?_⟩
    have hcredit := hbalanced.streams 1 hmem₃
    rwa [CreditFlow.credit, hflow₃, Nat.zero_add] at hcredit
  refine ⟨_, s₃, hall, ⟨e, List.mem_append_right _ (List.mem_append_right _ he), hstop⟩, hhoards.stopped,
    hhoards.full, ?_, ?_, ?_, ?_, fun _ _ hlater hquiet =>
      hhoards.not_canSend hbalanced hlater hquiet controlId⟩
  · rw [hids₃, hids₂]
    exact hevents
  all_goals rw [hcontrol]
  · exact List.cons_ne_nil _ _
  · rfl
  · rfl

/-- The buffers take one more mebibyte when the local socket stops being read. Once they are full and the
window is used up, the events of the control stream wait for that socket alone. -/
theorem control_starved :
    ∃ tr s, MuxRun .gateway tr s ∧ (∃ e ∈ tr, e.label = .stop 1 1048576) ∧
      (s.channels 1).reading = false ∧ (s.channels 1).room = 0 ∧ controlId ∈ s.ids ∧
      (s.channels controlId).pending ≠ [] ∧ (s.channels controlId).active = true ∧
      (s.channels controlId).flow.outstanding = 0 ∧
      ∀ tr' s', Run (MuxStep .gateway) s tr' s' →
        (∀ e ∈ tr', e.label ≠ .resume 1 ∧ e.label ≠ .close 1) → ¬ s'.CanSend .gateway controlId :=
  exists_starved 1048576

end BloomRelay.Bridging
