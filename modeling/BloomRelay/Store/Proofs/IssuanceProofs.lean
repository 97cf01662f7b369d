import BloomRelay.Store.Issuance
import BloomRelay.Store.Proofs.QuotaProofs

/-!
# Challenge issuance over sliding windows

A transaction counts the minute that ends at its own start time, while the challenges already in the
table carry the start times of theirs, which may be later. The bound on a window comes from the member
of it that is inserted last: it started within the window, so it counted every other member, none of
which can have been pruned while it was open.
-/

namespace BloomRelay.Store.Issuance

open Protocol

variable {sha256 : Bytes → Bytes32} {s s' : Issuance} {a : IssuanceAction} {tx : CreateTx}
  {tr : List (Event Issuance IssuanceAction)} {p : CreateTx → Bool}

/-! ## What a step does -/

inductive Steps (sha256 : Bytes → Bytes32) (s : Issuance) : IssuanceAction → Issuance → Prop where
  | call {call : Call} (hop : ∀ nonce source, call.op ≠ .createBootstrapChallenge nonce source) :
      Steps sha256 s (.call call) { s with db := call.after sha256 s.db }
  | refused {tx : CreateTx} : Steps sha256 s (.count tx) s
  | granted {tx : CreateTx} (hroom : ¬ tx.overQuota s.db) :
      Steps sha256 s (.count tx) { s with holder := some tx }
  | inserted {tx : CreateTx} {t : Challenges} (hholder : s.holder = some tx)
      (hinsert : s.db.bootstrapChallenges.insert? tx.challenge = some t) :
      Steps sha256 s .insert ⟨{ s.db with bootstrapChallenges := t }, none⟩
  | rolledBack : Steps sha256 s .rollback { s with holder := none }

theorem step_cases (h : step sha256 s a = some s') : Steps sha256 s a s' := by
  cases a with
  | call call =>
    simp only [step] at h
    split at h
    · cases h
    · rename_i hop
      cases h
      exact .call hop
  | count tx =>
    simp only [step] at h
    split at h
    · cases h
    · split_ifs at h with hquota
      · cases h
        exact .refused
      · cases h
        exact .granted hquota
  | insert =>
    simp only [step, Option.bind_eq_bind, Option.bind_eq_some_iff] at h
    obtain ⟨tx, hholder, t, hinsert, h⟩ := h
    cases h
    exact .inserted hholder hinsert
  | rollback =>
    simp only [step, Option.bind_eq_bind, Option.bind_eq_some_iff] at h
    obtain ⟨_, -, h⟩ := h
    cases h
    exact .rolledBack

/-! ## The issued challenges and the table -/

/-- The transaction that inserted the challenge. -/
def createdBy (c : BootstrapChallenge) : CreateTx := ⟨c.createdAt, c.nonce, c.sourceIp⟩

def rowCount (p : CreateTx → Bool) (t : Challenges) : Nat := t.rows.countP fun c => p (createdBy c)

theorem issuedCount_of_none {e : Event Issuance IssuanceAction} (h : issued e = none) :
    issuedCount p (e :: tr) = issuedCount p tr := by
  unfold issuedCount
  rw [List.filterMap_cons_none h]

theorem issuedCount_of_some {e : Event Issuance IssuanceAction} (h : issued e = some tx) :
    issuedCount p (e :: tr) = issuedCount p tr + if p tx then 1 else 0 := by
  unfold issuedCount
  rw [List.filterMap_cons_some h, List.countP_cons]

theorem rowCount_insert {t t' : Challenges} (h : t.insert? tx.challenge = some t') :
    rowCount p t' = rowCount p t + if p tx then 1 else 0 := by
  obtain ⟨-, hrows⟩ := t.insert?_eq_some_iff.mp h
  unfold rowCount
  rw [hrows, List.countP_append, List.countP_singleton]
  rfl

/-- Consumption leaves the creation of a challenge as it was. -/
theorem rowCount_consumed (t : Challenges) (nonce : String) (now : Time) :
    rowCount p (t.modify nonce (fun c => { c with consumedAt := some now }) (fun _ => rfl)) =
      rowCount p t := by
  unfold rowCount
  change (t.rows.map _).countP _ = _
  rw [List.countP_map]
  refine List.countP_congr fun c _ => ?_
  have hsame : ∀ b : Bool,
      createdBy (if b = true then { c with consumedAt := some now } else c) = createdBy c := by
    intro b
    cases b <;> rfl
  rw [Function.comp_apply, hsame]

theorem rowCount_pruned {t : Challenges} {old : BootstrapChallenge → Bool}
    (hkeep : ∀ c ∈ t.rows, old c = true → p (createdBy c) = false) :
    rowCount p (t.deleteWhere old) = rowCount p t := by
  unfold rowCount
  rw [Table.rows_deleteWhere, List.countP_filter]
  refine List.countP_congr fun c hc => ?_
  by_cases hold : old c = true
  · rw [hkeep c hc hold]
    simp
  · simp [hold]

theorem rowCount_call {call : Call} {db : Db}
    (hop : ∀ nonce source, call.op ≠ .createBootstrapChallenge nonce source)
    (hkeep : ∀ tx, p tx = true → call.now ≤ tx.now + hours 48) :
    rowCount p (call.after sha256 db).bootstrapChallenges = rowCount p db.bootstrapChallenges := by
  have hafter := call_challenges sha256 call db
  generalize (call.after sha256 db).bootstrapChallenges = t at hafter
  cases hafter with
  | kept => rfl
  | issued hcreate => exact absurd hcreate (hop _ _)
  | consumed => exact rowCount_consumed _ _ _
  | pruned _ hold =>
    refine rowCount_pruned fun c hc hdrop => ?_
    have hage : c.createdAt + hours 48 < call.now := hold c hc hdrop
    refine Bool.eq_false_iff.mpr fun hp => ?_
    exact Nat.not_le_of_lt hage (hkeep (createdBy c) hp)

/-- While no call is two days later than the challenges counted, the table has all that were issued. -/
theorem issuedCount_eq_rowCount (h : Runs sha256 tr s)
    (hkeep : ∀ e ∈ tr, ∀ call, e.label = .call call → ∀ tx, p tx = true →
      call.now ≤ tx.now + hours 48) :
    issuedCount p tr = rowCount p s.db.bootstrapChallenges := by
  induction h with
  | refl => rfl
  | snoc _ hs ih =>
    have ih := ih fun e he => hkeep e (List.mem_cons_of_mem _ he)
    cases step_cases hs with
    | call hop =>
      rw [issuedCount_of_none rfl, ih]
      exact (rowCount_call hop (hkeep _ List.mem_cons_self _ rfl)).symm
    | refused => exact ih
    | granted => exact ih
    | @inserted tx t hholder hinsert =>
      show _ = rowCount p t
      rw [rowCount_insert hinsert, ← ih]
      exact issuedCount_of_some hholder
    | rolledBack => exact ih

/-! ## The window of a transaction -/

/-- Created in the minute after `w`, for the source. -/
def inWindowFrom (w : Time) (source : IpAddr) (tx : CreateTx) : Bool :=
  inWindow w tx && decide (tx.source = source)

theorem OpenLessThanADay.tail {e : Event Issuance IssuanceAction} (h : OpenLessThanADay (e :: tr)) :
    OpenLessThanADay tr := by
  obtain ⟨_, hsorted, hclock⟩ := h
  cases hclock with
  | cons _ hrest => exact ⟨_, (List.pairwise_cons.mp hsorted).2, hrest⟩

/-- A call that has been made by the time a transaction counts did not start a day after it. -/
theorem OpenLessThanADay.call_lt {e e' : Event Issuance IssuanceAction} {call : Call}
    (h : OpenLessThanADay (e :: tr)) (he : e.label = .count tx) (he' : e' ∈ tr)
    (hcall : e'.label = .call call) : call.now < tx.now + hours 24 := by
  obtain ⟨_, hsorted, hclock⟩ := h
  cases hclock with
  | @cons _ time _ times hnow hrest =>
    obtain ⟨time', htime', hstep⟩ : ∃ time' ∈ times, call.now ≤ time' := by
      obtain ⟨i, hi, rfl⟩ := List.getElem_of_mem he'
      have hi' : i < times.length := hrest.length_eq ▸ hi
      have hstarted : call.now ∈ started (tr[i]) := by
        unfold started
        rw [hcall]
        rfl
      exact ⟨times[i], List.getElem_mem hi', (hrest.get hi hi' call.now hstarted).1⟩
    have hstarted : tx.now ∈ started e := by
      unfold started
      rw [he]
      rfl
    have hcreate : isCreate e = true := by
      unfold isCreate
      rw [he]
    have hopen : time < tx.now + hours 24 := (hnow tx.now hstarted).2 hcreate
    have horder : time' ≤ time := (List.pairwise_cons.mp hsorted).1 time' htime'
    exact Nat.lt_of_le_of_lt (hstep.trans horder) hopen

theorem kept_of_inWindow {w : Time} {tx' : CreateTx} {now : Time} (htx : inWindow w tx = true)
    (htx' : inWindow w tx' = true) (hnow : now < tx.now + hours 24) : now ≤ tx'.now + hours 48 := by
  obtain ⟨-, hend⟩ := of_decide_eq_true htx
  obtain ⟨hstart, -⟩ := of_decide_eq_true htx'
  have hday : minutes 1 + hours 24 ≤ hours 48 := by decide
  calc now ≤ tx.now + hours 24 := hnow.le
    _ ≤ w + (minutes 1 + hours 24) := by
      rw [← Nat.add_assoc]
      exact Nat.add_le_add_right hend _
    _ ≤ tx'.now + hours 48 := Nat.add_le_add hstart.le hday

/-- A transaction within quota counts all the members of its window that are in the table. -/
theorem rowCount_lt {w : Time} {db : Db} (hroom : ¬ tx.overQuota db) (htx : inWindow w tx = true) :
    rowCount (inWindowFrom w tx.source) db.bootstrapChallenges < 10 ∧
      rowCount (inWindow w) db.bootstrapChallenges < 100 := by
  have hrecent : ∀ c : BootstrapChallenge, inWindow w (createdBy c) = true →
      tx.now < c.createdAt + minutes 1 := by
    intro c hc
    obtain ⟨-, hend⟩ := of_decide_eq_true htx
    have hstart : w < c.createdAt := (of_decide_eq_true hc).1
    exact Nat.lt_of_le_of_lt hend (Nat.add_lt_add_right hstart _)
  unfold CreateTx.overQuota at hroom
  dsimp only at hroom
  rw [not_or, not_or, ← List.countP_eq_length_filter, ← List.countP_eq_length_filter] at hroom
  obtain ⟨hlocal, hglobal, -⟩ := hroom
  constructor
  · refine Nat.lt_of_le_of_lt (List.countP_mono_left fun c _ hc => ?_) (Nat.lt_of_not_le hlocal)
    obtain ⟨hin, hsource⟩ := Bool.and_eq_true_iff.mp hc
    exact decide_eq_true ⟨of_decide_eq_true hsource, hrecent c hin⟩
  · refine Nat.lt_of_le_of_lt (List.countP_mono_left fun c _ hc => ?_) (Nat.lt_of_not_le hglobal)
    exact decide_eq_true (hrecent c hc)

/-- What the transactions so far keep: the bounds, and room for the one that has the lock. -/
structure WithinQuota (tr : List (Event Issuance IssuanceAction)) (s : Issuance) : Prop where
  perSource : ∀ w source, issuedCount (inWindowFrom w source) tr ≤ 10
  overall : ∀ w, issuedCount (inWindow w) tr ≤ 100
  room : ∀ tx, s.holder = some tx → ∀ w, inWindow w tx = true →
    issuedCount (inWindowFrom w tx.source) tr < 10 ∧ issuedCount (inWindow w) tr < 100

theorem WithinQuota.same {e : Event Issuance IssuanceAction} (h : WithinQuota tr s)
    (he : issued e = none) (hholder : ∀ tx, s'.holder = some tx → s.holder = some tx) :
    WithinQuota (e :: tr) s' := by
  refine ⟨fun w source => ?_, fun w => ?_, fun tx htx w hin => ?_⟩
  · rw [issuedCount_of_none he]
    exact h.perSource w source
  · rw [issuedCount_of_none he]
    exact h.overall w
  · rw [issuedCount_of_none he, issuedCount_of_none he]
    exact h.room tx (hholder tx htx) w hin

theorem WithinQuota.granted (h : WithinQuota tr s) (hrun : Runs sha256 tr s)
    (hday : OpenLessThanADay (⟨s, .count tx, s'⟩ :: tr)) (hroom : ¬ tx.overQuota s.db)
    (hs' : s' = { s with holder := some tx }) : WithinQuota (⟨s, .count tx, s'⟩ :: tr) s' := by
  subst hs'
  refine ⟨h.perSource, h.overall, fun tx' htx' w hin => ?_⟩
  obtain rfl : tx = tx' := Option.some.inj htx'
  have hkeep : ∀ e ∈ tr, ∀ call, e.label = .call call → ∀ tx', inWindow w tx' = true →
      call.now ≤ tx'.now + hours 48 := fun e he call hcall tx' htx' =>
    kept_of_inWindow hin htx' (hday.call_lt rfl he hcall)
  have hfrom := issuedCount_eq_rowCount (p := inWindowFrom w tx.source) hrun
    fun e he call hcall tx' htx' => hkeep e he call hcall tx' (Bool.and_eq_true_iff.mp htx').1
  have hall := issuedCount_eq_rowCount hrun hkeep
  rw [issuedCount_of_none rfl, issuedCount_of_none rfl, hfrom, hall]
  exact rowCount_lt hroom hin

theorem WithinQuota.inserted {e : Event Issuance IssuanceAction} (h : WithinQuota tr s)
    (he : issued e = some tx) (hholder : s.holder = some tx) (hfree : s'.holder = none) :
    WithinQuota (e :: tr) s' := by
  refine ⟨fun w source => ?_, fun w => ?_, fun tx' htx' => ?_⟩
  · rw [issuedCount_of_some he]
    by_cases hin : inWindowFrom w source tx = true
    · obtain ⟨hw, hsource⟩ := Bool.and_eq_true_iff.mp hin
      have hroom := (h.room tx hholder w hw).1
      rw [of_decide_eq_true hsource] at hroom
      rw [if_pos hin]
      exact hroom
    · rw [if_neg hin]
      exact h.perSource w source
  · rw [issuedCount_of_some he]
    by_cases hin : inWindow w tx = true
    · rw [if_pos hin]
      exact (h.room tx hholder w hin).2
    · rw [if_neg hin]
      exact h.overall w
  · rw [hfree] at htx'
    cases htx'

theorem withinQuota_of_run (h : Runs sha256 tr s) (hday : OpenLessThanADay tr) : WithinQuota tr s := by
  induction h with
  | refl => exact ⟨fun _ _ => Nat.zero_le _, fun _ => Nat.zero_le _, fun _ htx => by cases htx⟩
  | snoc hrun hs ih =>
    have ih := ih hday.tail
    cases step_cases hs with
    | call => exact ih.same rfl fun _ htx => htx
    | refused => exact ih.same rfl fun _ htx => htx
    | granted hroom => exact ih.granted hrun hday hroom rfl
    | inserted hholder => exact ih.inserted hholder hholder rfl
    | rolledBack => exact ih.same rfl fun _ htx => by cases htx

/-! ## Consumption -/

/-- Every challenge lives for a minute, and one that is not consumed was issued, with no consumption of
its nonce since. -/
def Fresh (sha256 : Bytes → Bytes32) (tr : List (Event Issuance IssuanceAction)) (t : Challenges) :
    Prop :=
  ∀ c ∈ t.rows, c.expiresAt = c.createdAt + minutes 1 ∧
    (c.consumedAt = none → Since (fun e _ => issued e = some (createdBy c))
      (fun e => ∀ source, ¬ Consumes sha256 c.nonce source e) tr)

theorem not_consumes_of_label {e : Event Issuance IssuanceAction} (h : ∀ call, e.label ≠ .call call)
    (nonce : String) (source : IpAddr) : ¬ Consumes sha256 nonce source e :=
  fun ⟨call, hcall, _⟩ => h call hcall

theorem Fresh.mono {e : Event Issuance IssuanceAction} {t t' : Challenges} (h : Fresh sha256 tr t)
    (hsub : ∀ c ∈ t'.rows, c ∈ t.rows)
    (hno : ∀ c ∈ t'.rows, ∀ source, ¬ Consumes sha256 c.nonce source e) :
    Fresh sha256 (e :: tr) t' := by
  intro c hc
  obtain ⟨hlife, hfresh⟩ := h c (hsub c hc)
  exact ⟨hlife, fun hnew => (hfresh hnew).cons (hno c hc)⟩

theorem Fresh.call {call : Call} (h : Fresh sha256 tr s.db.bootstrapChallenges)
    (hop : ∀ nonce source, call.op ≠ .createBootstrapChallenge nonce source) :
    Fresh sha256 (⟨s, .call call, s'⟩ :: tr) (call.after sha256 s.db).bootstrapChallenges := by
  have hafter := call_challenges sha256 call s.db
  generalize (call.after sha256 s.db).bootstrapChallenges = t at hafter
  cases hafter with
  | kept hno =>
    refine h.mono (fun _ hc => hc) ?_
    rintro c - source ⟨_, hlabel, hconsume, hok⟩
    cases hlabel
    have hfalse := hno source s.db
    unfold Enrolls at hfalse
    rw [hconsume] at hfalse
    exact of_decide_eq_false hfalse ⟨rfl, hok⟩
  | issued hcreate => exact absurd hcreate (hop _ _)
  | @consumed nonce source₀ c₀ hconsume hok hfind hopen =>
    intro c hc
    obtain ⟨c₁, hc₁, hmap⟩ := List.mem_map.mp hc
    by_cases hnonce : c₁.nonce = nonce
    · -- The challenge that is consumed.
      rw [if_pos (decide_eq_true hnonce)] at hmap
      subst hmap
      exact ⟨(h c₁ hc₁).1, fun hnew => by cases hnew⟩
    · rw [if_neg (by rw [decide_eq_true_iff]; exact hnonce)] at hmap
      subst hmap
      obtain ⟨hlife, hfresh⟩ := h c₁ hc₁
      refine ⟨hlife, fun hnew => (hfresh hnew).cons ?_⟩
      rintro source ⟨_, hlabel, hother, -⟩
      cases hlabel
      rw [hconsume] at hother
      injection hother with hsame
      exact hnonce hsame.symm
  | pruned hprune =>
    refine h.mono (fun _ hc => List.mem_of_mem_filter hc) ?_
    rintro c - source ⟨_, hlabel, hconsume, -⟩
    cases hlabel
    rw [hprune] at hconsume
    cases hconsume

theorem Fresh.inserted {t : Challenges} (h : Fresh sha256 tr s.db.bootstrapChallenges)
    (hholder : s.holder = some tx)
    (hinsert : s.db.bootstrapChallenges.insert? tx.challenge = some t) :
    Fresh sha256 (⟨s, .insert, s'⟩ :: tr) t := by
  obtain ⟨-, hrows⟩ := Table.insert?_eq_some_iff _ |>.mp hinsert
  intro c hc
  rw [hrows] at hc
  rcases List.mem_append.mp hc with hc | hc
  · obtain ⟨hlife, hfresh⟩ := h c hc
    exact ⟨hlife, fun hnew => (hfresh hnew).cons (not_consumes_of_label (fun _ h => by cases h) _)⟩
  · obtain rfl := List.mem_singleton.mp hc
    exact ⟨rfl, fun _ => .now hholder⟩

theorem fresh_of_run (h : Runs sha256 tr s) : Fresh sha256 tr s.db.bootstrapChallenges := by
  induction h with
  | refl => exact fun c hc => absurd hc List.not_mem_nil
  | snoc _ hs ih =>
    cases step_cases hs with
    | call hop => exact ih.call hop
    | inserted hholder hinsert => exact ih.inserted hholder hinsert
    | refused | granted | rolledBack =>
      exact ih.mono (fun _ hc => hc) fun _ _ =>
        not_consumes_of_label (fun _ h => by cases h) _

/-- A consumption finds the challenge unconsumed, unexpired and of the same source. -/
theorem found_of_consumes {e : Event Issuance IssuanceAction} {nonce : String} {source : IpAddr}
    (h : Consumes sha256 nonce source e) :
    ∃ c ∈ e.src.db.bootstrapChallenges.rows, c.nonce = nonce ∧
      ∀ now ∈ started e, c.outstanding source now = true := by
  obtain ⟨call, hlabel, hop, hok⟩ := h
  have hstarted : started e = some call.now := by
    unfold started
    rw [hlabel]
  have hafter := call_challenges sha256 call e.src.db
  generalize (call.after sha256 e.src.db).bootstrapChallenges = t at hafter
  cases hafter with
  | kept hno =>
    have hfalse := hno source e.src.db
    unfold Enrolls at hfalse
    rw [hop] at hfalse
    exact absurd ⟨rfl, hok⟩ (of_decide_eq_false hfalse)
  | issued hother => rw [hop] at hother; cases hother
  | @consumed _ _ c hother _ hfind hopen =>
    rw [hop] at hother
    cases hother
    refine ⟨c, Table.find?_mem _ hfind, Table.find?_key _ hfind, fun now hnow => ?_⟩
    obtain rfl : call.now = now := Option.some.inj (hstarted.symm.trans hnow)
    exact hopen
  | pruned hother => rw [hop] at hother; cases hother

/-- **The issuance rate over sliding windows.** However the transactions are ordered by the quota lock,
any minute has at most ten challenges of one source and a hundred in all, and what is consumed was
issued to the source less than a minute ago and has not been consumed since. -/
theorem issuance_rate (h : Runs sha256 tr s) (hday : OpenLessThanADay tr) :
    (∀ w source, issuedCount (inWindowFrom w source) tr ≤ 10) ∧
      (∀ w, issuedCount (inWindow w) tr ≤ 100) ∧
      ∀ later e earlier nonce source, tr = later ++ e :: earlier →
        Consumes sha256 nonce source e →
          Since (fun i _ => ∃ tx, issued i = some tx ∧ tx.nonce = nonce ∧ tx.source = source ∧
              ∀ now ∈ started e, now < tx.now + minutes 1)
            (fun i => ∀ source', ¬ Consumes sha256 nonce source' i) earlier := by
  have hquota := withinQuota_of_run h hday
  refine ⟨hquota.perSource, hquota.overall, ?_⟩
  rintro later e earlier nonce source rfl hconsumes
  obtain ⟨hearlier, -, -⟩ := h.split
  obtain ⟨c, hc, rfl, hopen⟩ := found_of_consumes hconsumes
  obtain ⟨hlife, hfresh⟩ := fresh_of_run hearlier c hc
  obtain ⟨call, hlabel, -⟩ := hconsumes
  have hstarted : call.now ∈ started e := by
    unfold started
    rw [hlabel]
    rfl
  obtain ⟨hsource, -, hnew⟩ := of_decide_eq_true (hopen call.now hstarted)
  obtain ⟨between, i, before, rfl, hissued, hsince⟩ := hfresh hnew
  refine ⟨between, i, before, rfl, ⟨createdBy c, hissued, rfl, hsource, fun now hnow => ?_⟩, hsince⟩
  have hlive : now < c.expiresAt := (of_decide_eq_true (hopen now hnow)).2.1
  rw [hlife] at hlive
  exact hlive

/-- All steps at one time, less than a day after every transaction started. -/
def atTime (time : Time) (s : Issuance) (a : IssuanceAction) : Bool :=
  (started ⟨s, a, s⟩).all fun start => start ≤ time ∧ time < start + hours 24

theorem openLessThanADay_atTime {time : Time} (h : ∀ e ∈ tr, atTime time e.src e.label = true) :
    OpenLessThanADay tr := by
  refine ⟨List.replicate tr.length time, List.pairwise_replicate.mpr (.inr le_rfl), ?_⟩
  rw [List.forall₂_iff_get]
  refine ⟨List.length_replicate.symm, fun i hi _ start hstart => ?_⟩
  have hall := Option.all_eq_true _ _ |>.mp (h _ (List.get_mem tr ⟨i, hi⟩)) start hstart
  obtain ⟨hle, hlt⟩ := of_decide_eq_true hall
  simp only [List.get_eq_getElem, List.getElem_replicate]
  exact ⟨hle, fun _ => hlt⟩

/-- Two transactions get the lock in the other order than they started in, and the challenge of the one
that started first is consumed. -/
def lateLock : List IssuanceAction :=
  [.count ⟨seconds 30, "second", .v4 0xc0000201⟩, .insert,
    .count ⟨seconds 10, "first", .v4 0xc0000201⟩, .insert,
    .call ⟨.default, seconds 40, .consumeBootstrapChallenge "first" (.v4 0xc0000201)⟩]

theorem issuance_rate_lateLock : ∃ tr s, Runs (fun _ => 0) tr s ∧ OpenLessThanADay tr ∧
    (∀ w source, issuedCount (inWindowFrom w source) tr ≤ 10) ∧
    (∀ w, issuedCount (inWindow w) tr ≤ 100) ∧
    s.db.bootstrapChallenges.rows.map (fun c => (c.nonce, c.consumedAt)) =
      [("second", none), ("first", some (seconds 40))] := by
  have hplay : (Run.play (fun s a => if atTime (seconds 40) s a then step (fun _ => 0) s a else none)
      ⟨Db.migrated, none⟩ lateLock).map (fun s =>
        s.db.bootstrapChallenges.rows.map fun c => (c.nonce, c.consumedAt)) =
      some [("second", none), ("first", some (seconds 40))] := by
    decide +kernel
  obtain ⟨s, hs, hrows⟩ := Option.map_eq_some_iff.mp hplay
  obtain ⟨tr, hrun, htimes⟩ := Run.of_play_checked hs
  have hday := openLessThanADay_atTime htimes
  obtain ⟨hsource, hall, -⟩ := issuance_rate hrun hday
  exact ⟨tr, s, hrun, hday, hsource, hall, hrows⟩

end BloomRelay.Store.Issuance
