import BloomRelay.Store.Proofs.EffectProofs

/-!
# The enrollment quota

A challenge is issued to a source while it has completed fewer than twenty enrollments within a day, but
an enrollment is completed later, when the challenge is consumed, and several challenges may be
outstanding by then. The quota is kept where the outstanding ones are few enough as well.
-/

namespace BloomRelay.Store

open Protocol Checked

variable {sha256 : Bytes → Bytes32} {db db' : Db} {now later : Time} {source : IpAddr} {call : Call}
  {tr : List (Event Db Call)}

/-! ## Counting enrollments -/

/-- A consumed challenge of the source, as `create_bootstrap_challenge` counts it. -/
def BootstrapChallenge.enrolled (c : BootstrapChallenge) (source : IpAddr) (now : Time) : Bool :=
  c.sourceIp = source ∧ now < c.createdAt + hours 24 + minutes 1 ∧
    (c.consumedAt.any fun t => now < t + hours 24) = true

/-- A challenge of the source that can still be consumed. -/
def BootstrapChallenge.outstanding (c : BootstrapChallenge) (source : IpAddr) (now : Time) : Bool :=
  c.sourceIp = source ∧ now < c.expiresAt ∧ c.consumedAt = none

abbrev Challenges := Table BootstrapChallenge BootstrapChallenge.nonce

def dailyEnrollments (t : Challenges) (source : IpAddr) (now : Time) : Nat :=
  t.rows.countP fun c => c.enrolled source now

def outstandingChallenges (t : Challenges) (source : IpAddr) (now : Time) : Nat :=
  t.rows.countP fun c => c.outstanding source now

/-- The step completes an enrollment of the source. -/
def Enrolls (sha256 : Bytes → Bytes32) (source : IpAddr) (e : Event Db Call) : Bool :=
  match e.label.op with
  | .consumeBootstrapChallenge _ s =>
    s = source ∧ (e.label.exec sha256 e.src).map Prod.fst = .ok (.flag true)
  | _ => false

/-! ## What a call does to the challenges -/

/-- The challenges after a call: as they were, with one more, with one consumed, or without old ones. -/
inductive ChallengesAfter (sha256 : Bytes → Bytes32) (db : Db) (call : Call) : Challenges → Prop where
  | kept (hno : ∀ source db', Enrolls sha256 source ⟨db, call, db'⟩ = false) :
      ChallengesAfter sha256 db call db.bootstrapChallenges
  | issued {nonce : String} {source : IpAddr} {t : Challenges}
      (hop : call.op = .createBootstrapChallenge nonce source)
      (hdaily : dailyEnrollments db.bootstrapChallenges source call.now < 20)
      (hinsert : db.bootstrapChallenges.insert?
        ⟨nonce, source, call.now + minutes 1, call.now, none⟩ = some t) :
      ChallengesAfter sha256 db call t
  | consumed {nonce : String} {source : IpAddr} {c : BootstrapChallenge}
      (hop : call.op = .consumeBootstrapChallenge nonce source)
      (hok : (call.exec sha256 db).map Prod.fst = .ok (.flag true))
      (hfind : db.bootstrapChallenges.find? nonce = some c)
      (hopen : c.outstanding source call.now = true) :
      ChallengesAfter sha256 db call (db.bootstrapChallenges.modify nonce
        (fun c => { c with consumedAt := some call.now }) (fun _ => rfl))
  | pruned {limit : Nat} {old : BootstrapChallenge → Bool}
      (hop : call.op = .pruneBootstrap limit)
      (hold : ∀ c ∈ db.bootstrapChallenges.rows, old c = true → c.createdAt + hours 48 < call.now) :
      ChallengesAfter sha256 db call (db.bootstrapChallenges.deleteWhere old)

theorem createBootstrapChallenge_cases {nonce : String} {b : Bool}
    (h : createBootstrapChallenge db now nonce source = .ok (b, db')) :
    db' = db ∨ dailyEnrollments db.bootstrapChallenges source now < 20 ∧
      db.bootstrapChallenges.insert? ⟨nonce, source, now + minutes 1, now, none⟩ =
        some db'.bootstrapChallenges := by
  unfold createBootstrapChallenge at h
  dsimp only at h
  split at h
  · cases h
    exact .inl rfl
  · rename_i hquota
    simp only [bind_eq_ok, found_eq_ok, Except.ok.injEq, Prod.mk.injEq] at h
    obtain ⟨t, ht, -, rfl⟩ := h
    refine .inr ⟨?_, ht⟩
    rw [not_or, not_or] at hquota
    rw [dailyEnrollments, List.countP_eq_length_filter]
    exact Nat.lt_of_not_le hquota.2.2

theorem consumeBootstrapChallenge_cases (db : Db) (now : Time) (nonce : String) (source : IpAddr) :
    consumeBootstrapChallenge db now nonce source = (false, db) ∨
      ∃ c, db.bootstrapChallenges.find? nonce = some c ∧ c.outstanding source now = true ∧
        consumeBootstrapChallenge db now nonce source = (true, { db with
          bootstrapChallenges := db.bootstrapChallenges.modify nonce
            (fun c => { c with consumedAt := some now }) (fun _ => rfl) }) := by
  unfold consumeBootstrapChallenge
  split
  · exact .inl rfl
  · rename_i c hc
    obtain ⟨hfind, hopen⟩ := Option.filter_eq_some_iff.mp hc
    exact .inr ⟨c, hfind, hopen, rfl⟩

theorem enrolls_of_op (hop : ∀ nonce s, call.op ≠ .consumeBootstrapChallenge nonce s)
    (source : IpAddr) (db db' : Db) : Enrolls sha256 source ⟨db, call, db'⟩ = false := by
  unfold Enrolls
  split
  · rename_i nonce s heq
    exact absurd heq (hop nonce s)
  · rfl

theorem enrolls_of_answer (hno : (call.exec sha256 db).map Prod.fst ≠ .ok (.flag true))
    (source : IpAddr) (db' : Db) : Enrolls sha256 source ⟨db, call, db'⟩ = false := by
  unfold Enrolls
  split
  · exact decide_eq_false fun h => hno h.2
  · rfl

theorem prune_old {limit : Nat} {c : BootstrapChallenge} (hc : c ∈ db.bootstrapChallenges.rows)
    (hold : ((((db.bootstrapChallenges.rows.filter fun c => c.createdAt + hours 48 < now).mergeSort
      fun a b => a.createdAt ≤ b.createdAt).take limit).map (·.nonce)).contains c.nonce = true) :
    c.createdAt + hours 48 < now := by
  obtain ⟨c', hc', hnonce⟩ := List.mem_map.mp (List.contains_iff_mem.mp hold)
  have hmem := List.mem_mergeSort.mp (List.mem_of_mem_take hc')
  obtain ⟨hrow, hage⟩ := List.mem_filter.mp hmem
  rw [← db.bootstrapChallenges.key_inj hrow hc hnonce]
  exact of_decide_eq_true hage

/-- The calls on the challenges, and that no other call enrolls or touches them. -/
theorem call_challenges (sha256 : Bytes → Bytes32) (call : Call) (db : Db) :
    ChallengesAfter sha256 db call (call.after sha256 db).bootstrapChallenges := by
  have hframe := (call_effect sha256 call db).bootstrap
  cases hexec : call.exec sha256 db with
  | error e =>
    have hafter : call.after sha256 db = db := by
      unfold Call.after
      rw [hexec]
    rw [hafter]
    refine .kept fun source db' => enrolls_of_answer ?_ source db'
    rw [hexec]
    exact fun h => by cases h
  | ok p =>
    obtain ⟨reply, db'⟩ := p
    obtain ⟨htx, -⟩ := exec_ok hexec
    have hafter : call.after sha256 db = db' := by
      unfold Call.after
      rw [hexec]
    rw [hafter] at hframe ⊢
    cases hop : call.op with
    | createBootstrapChallenge nonce source =>
      rw [hop] at htx
      obtain ⟨b, htx, -⟩ := answer_ok.mp htx
      obtain rfl | ⟨hdaily, hinsert⟩ := createBootstrapChallenge_cases htx
      · exact .kept (enrolls_of_op (by rw [hop]; exact fun _ _ h => by cases h) · _)
      · exact .issued hop hdaily hinsert
    | consumeBootstrapChallenge nonce source =>
      rw [hop] at htx
      simp only [StoreOp.transact, answer_total] at htx
      obtain hno | ⟨c, hfind, hopen, hyes⟩ :=
        consumeBootstrapChallenge_cases db call.now nonce source
      · rw [hno] at htx
        obtain ⟨rfl, rfl⟩ := htx
        refine .kept (enrolls_of_answer ?_)
        rw [hexec]
        exact fun h => by cases h
      · rw [hyes] at htx
        obtain ⟨rfl, rfl⟩ := htx
        exact .consumed hop (by rw [hexec]; rfl) hfind hopen
    | pruneBootstrap limit =>
      rw [hop] at htx
      cases htx
      exact .pruned hop fun c hc hold => prune_old hc hold
    | _ =>
      rw [hframe (by rw [hop]; rfl)]
      exact .kept (enrolls_of_op (by rw [hop]; exact fun _ _ h => by cases h) · _)

/-! ## The quota over a run -/

/-- The enrollments of the source that are less than a day old at `now`. -/
def enrolledSince (sha256 : Bytes → Bytes32) (source : IpAddr) (now : Time)
    (tr : List (Event Db Call)) : Nat :=
  tr.countP fun e => Enrolls sha256 source e && decide (now < e.label.now + hours 24)

/-- No call on the challenges so far is later than `now`. -/
def Past (now : Time) (tr : List (Event Db Call)) : Prop :=
  ∀ e ∈ tr, e.label.op.writesBootstrap = true → e.label.now ≤ now

/-- The calls on the challenges commit in the order of their times. -/
def InTime (tr : List (Event Db Call)) : Prop :=
  tr.Pairwise fun later earlier => later.label.op.writesBootstrap = true →
    earlier.label.op.writesBootstrap = true → earlier.label.now ≤ later.label.now

/-- Where a challenge is issued to the source, its enrollments of the day and its outstanding challenges
together are fewer than twenty. -/
def RoomFor (source : IpAddr) (e : Event Db Call) : Prop :=
  ∀ nonce, e.label.op = .createBootstrapChallenge nonce source →
    dailyEnrollments e.src.bootstrapChallenges source e.label.now < 20 →
    dailyEnrollments e.src.bootstrapChallenges source e.label.now +
      outstandingChallenges e.src.bootstrapChallenges source e.label.now < 20

def hasRoom (source : IpAddr) (e : Event Db Call) : Bool :=
  match e.label.op with
  | .createBootstrapChallenge _ s => s = source →
    dailyEnrollments e.src.bootstrapChallenges source e.label.now < 20 →
    dailyEnrollments e.src.bootstrapChallenges source e.label.now +
      outstandingChallenges e.src.bootstrapChallenges source e.label.now < 20
  | _ => true

theorem roomFor_of_hasRoom {e : Event Db Call} (h : hasRoom source e = true) : RoomFor source e := by
  intro nonce hop
  unfold hasRoom at h
  rw [hop] at h
  exact of_decide_eq_true h rfl

structure QuotaKept (sha256 : Bytes → Bytes32) (source : IpAddr) (tr : List (Event Db Call))
    (t : Challenges) : Prop where
  /-- A challenge lives for a minute. -/
  lifetime : ∀ c ∈ t.rows, c.expiresAt = c.createdAt + minutes 1
  /-- The enrollments of the last day are still in the table. -/
  counted : ∀ now, Past now tr → enrolledSince sha256 source now tr ≤ dailyEnrollments t source now
  /-- They and the outstanding challenges are within the quota. -/
  bounded : ∀ now, Past now tr →
    dailyEnrollments t source now + outstandingChallenges t source now ≤ 20

theorem enrolled_iff {c : BootstrapChallenge} : c.enrolled source now = true ↔
    c.sourceIp = source ∧ now < c.createdAt + hours 24 + minutes 1 ∧
      ∃ t, c.consumedAt = some t ∧ now < t + hours 24 := by
  have hday : (c.consumedAt.any fun t => now < t + hours 24) = true ↔
      ∃ t, c.consumedAt = some t ∧ now < t + hours 24 := by
    rw [Option.any_eq_true]
    exact ⟨fun ⟨t, ht, h⟩ => ⟨t, ht, of_decide_eq_true h⟩, fun ⟨t, ht, h⟩ => ⟨t, ht, decide_eq_true h⟩⟩
  unfold BootstrapChallenge.enrolled
  rw [decide_eq_true_iff, hday]

theorem enrolled_later {c : BootstrapChallenge} (hle : now ≤ later)
    (h : c.enrolled source later = true) : c.enrolled source now = true := by
  obtain ⟨hsource, hage, t, ht, hday⟩ := enrolled_iff.mp h
  exact enrolled_iff.mpr ⟨hsource, Nat.lt_of_le_of_lt hle hage, t, ht, Nat.lt_of_le_of_lt hle hday⟩

theorem outstanding_later {c : BootstrapChallenge} (hle : now ≤ later)
    (h : c.outstanding source later = true) : c.outstanding source now = true := by
  unfold BootstrapChallenge.outstanding at h ⊢
  obtain ⟨hsource, hlive, hnew⟩ := of_decide_eq_true h
  exact decide_eq_true ⟨hsource, Nat.lt_of_le_of_lt hle hlive, hnew⟩

/-- Time only lets enrollments and challenges lapse. -/
theorem counts_later (t : Challenges) (source : IpAddr) (hle : now ≤ later) :
    dailyEnrollments t source later + outstandingChallenges t source later ≤
      dailyEnrollments t source now + outstandingChallenges t source now :=
  Nat.add_le_add (List.countP_mono_left fun _ _ h => enrolled_later hle h)
    (List.countP_mono_left fun _ _ h => outstanding_later hle h)

theorem Past.tail {e : Event Db Call} (h : Past now (e :: tr)) : Past now tr :=
  fun e' he' => h e' (List.mem_cons_of_mem e he')

theorem InTime.past {e : Event Db Call} (h : InTime (e :: tr))
    (hop : e.label.op.writesBootstrap = true) : Past e.label.now tr :=
  fun e' he' => (List.pairwise_cons.mp h).1 e' he' hop

theorem enrolledSince_of_not {e : Event Db Call} (h : Enrolls sha256 source e = false) :
    enrolledSince sha256 source now (e :: tr) = enrolledSince sha256 source now tr := by
  unfold enrolledSince
  rw [List.countP_cons, h]
  rfl

theorem enrolledSince_consumed {nonce : String} {s : IpAddr}
    (hop : call.op = .consumeBootstrapChallenge nonce s)
    (hok : (call.exec sha256 db).map Prod.fst = .ok (.flag true)) :
    enrolledSince sha256 source now (⟨db, call, db'⟩ :: tr) =
      enrolledSince sha256 source now tr +
        (if s = source ∧ now < call.now + hours 24 then 1 else 0) := by
  have henrolls : Enrolls sha256 source ⟨db, call, db'⟩ = decide (s = source) := by
    unfold Enrolls
    rw [hop]
    exact decide_eq_decide.mpr ⟨fun h => h.1, fun h => ⟨h, hok⟩⟩
  have hiff : (decide (s = source) && decide (now < call.now + hours 24)) = true ↔
      s = source ∧ now < call.now + hours 24 := by
    rw [Bool.and_eq_true, decide_eq_true_iff, decide_eq_true_iff]
  unfold enrolledSince
  simp only [List.countP_cons, henrolls, hiff]

/-- A new challenge is outstanding and no enrollment. -/
theorem counts_issued {nonce : String} {s : IpAddr} {t t' : Challenges}
    (hinsert : t.insert? ⟨nonce, s, now + minutes 1, now, none⟩ = some t') (source : IpAddr)
    (later : Time) :
    dailyEnrollments t' source later = dailyEnrollments t source later ∧
      outstandingChallenges t' source later ≤
        outstandingChallenges t source later + (if s = source then 1 else 0) := by
  obtain ⟨-, hrows⟩ := t.insert?_eq_some_iff.mp hinsert
  unfold dailyEnrollments outstandingChallenges
  rw [hrows, List.countP_append, List.countP_append, List.countP_singleton, List.countP_singleton]
  constructor
  · have hnew : BootstrapChallenge.enrolled ⟨nonce, s, now + minutes 1, now, none⟩ source later =
        false := decide_eq_false fun h => Bool.false_ne_true h.2.2
    rw [hnew]
    rfl
  · refine Nat.add_le_add_left ?_ _
    by_cases hs : s = source
    · rw [if_pos hs]
      split_ifs <;> omega
    · have hother : BootstrapChallenge.outstanding ⟨nonce, s, now + minutes 1, now, none⟩ source
          later = false := decide_eq_false fun h => hs h.1
      rw [hother]
      exact Nat.zero_le _

theorem lt_add_of_consumed {now later created day minute : Nat} (h : later < now + day)
    (hlive : now < created + minute) : later < created + day + minute := by
  omega

theorem not_lt_add_of_pruned {now later created day minute twoDays : Nat} (h : created + twoDays < now)
    (hle : now ≤ later) (hday : day + minute ≤ twoDays) : ¬ later < created + day + minute := by
  omega

/-- A consumed challenge is one outstanding challenge less and one enrollment more. -/
theorem counts_consumed {nonce : String} {s : IpAddr} {t : Challenges} {c : BootstrapChallenge}
    (hfind : t.find? nonce = some c) (hopen : c.outstanding s now = true)
    (hlifetime : c.expiresAt = c.createdAt + minutes 1) (source : IpAddr) (later : Time) :
    dailyEnrollments (t.modify nonce (fun c => { c with consumedAt := some now }) (fun _ => rfl))
        source later =
      dailyEnrollments t source later + (if s = source ∧ later < now + hours 24 then 1 else 0) ∧
    outstandingChallenges (t.modify nonce (fun c => { c with consumedAt := some now }) (fun _ => rfl))
        source later + (if s = source ∧ later < c.expiresAt then 1 else 0) =
      outstandingChallenges t source later := by
  obtain ⟨rfl, hlive, hnew⟩ := of_decide_eq_true hopen
  have hold : c.enrolled source later = false :=
    decide_eq_false fun h => by rw [hnew] at h; exact Bool.false_ne_true h.2.2
  have henrolled : BootstrapChallenge.enrolled { c with consumedAt := some now } source later =
      decide (c.sourceIp = source ∧ later < now + hours 24) := by
    have hlt : now < c.createdAt + minutes 1 := hlifetime ▸ hlive
    rw [Bool.eq_iff_iff, enrolled_iff, decide_eq_true_iff]
    constructor
    · rintro ⟨hsource, -, _, ht, hday⟩
      cases ht
      exact ⟨hsource, hday⟩
    · rintro ⟨hsource, hday⟩
      exact ⟨hsource, lt_add_of_consumed hday hlt, now, rfl, hday⟩
  have hlapsed : c.outstanding source later = decide (c.sourceIp = source ∧ later < c.expiresAt) :=
    decide_eq_decide.mpr ⟨fun h => ⟨h.1, h.2.1⟩, fun h => ⟨h.1, h.2, hnew⟩⟩
  have hgone : BootstrapChallenge.outstanding { c with consumedAt := some now } source later =
      false := decide_eq_false fun h => by cases h.2.2
  have hdaily := t.countP_modify (fun c => { c with consumedAt := some now }) (fun _ => rfl) hfind
    fun c => c.enrolled source later
  have hopened := t.countP_modify (fun c => { c with consumedAt := some now }) (fun _ => rfl) hfind
    fun c => c.outstanding source later
  simp only [hold, henrolled, decide_eq_true_eq] at hdaily
  simp only [hlapsed, hgone, decide_eq_true_eq] at hopened
  exact ⟨hdaily, hopened⟩

/-- What is pruned is neither outstanding nor an enrollment of the day. -/
theorem counts_pruned {t : Challenges} {old : BootstrapChallenge → Bool}
    (hold : ∀ c ∈ t.rows, old c = true → c.createdAt + hours 48 < now) (hle : now ≤ later)
    (source : IpAddr) :
    dailyEnrollments (t.deleteWhere old) source later = dailyEnrollments t source later ∧
      outstandingChallenges (t.deleteWhere old) source later ≤
        outstandingChallenges t source later := by
  unfold dailyEnrollments outstandingChallenges
  rw [Table.rows_deleteWhere]
  constructor
  · rw [List.countP_filter]
    refine List.countP_congr fun c hc => ?_
    by_cases hdrop : old c = true
    · have hage := hold c hc hdrop
      have hlapsed : c.enrolled source later = false := by
        have hday : hours 24 + minutes 1 ≤ hours 48 := by decide
        exact decide_eq_false fun h => not_lt_add_of_pruned hage hle hday h.2.1
      rw [hlapsed]
      simp
    · simp [hdrop]
  · exact List.filter_sublist.countP_le

theorem QuotaKept.step (h : QuotaKept sha256 source tr db.bootstrapChallenges)
    (horder : InTime (⟨db, call, db'⟩ :: tr)) (hroom : RoomFor source ⟨db, call, db'⟩)
    {t : Challenges} (hc : ChallengesAfter sha256 db call t) :
    QuotaKept sha256 source (⟨db, call, db'⟩ :: tr) t := by
  cases hc with
  | kept hno =>
    refine ⟨h.lifetime, fun now hpast => ?_, fun now hpast => h.bounded now hpast.tail⟩
    rw [enrolledSince_of_not (hno source db')]
    exact h.counted now hpast.tail
  | @issued nonce s t hop hdaily hinsert =>
    have hwrites : call.op.writesBootstrap = true := by rw [hop]; rfl
    have hcounts := counts_issued hinsert source
    refine ⟨?_, fun now hpast => ?_, fun now hpast => ?_⟩
    · obtain ⟨-, hrows⟩ := (Table.insert?_eq_some_iff _).mp hinsert
      rw [hrows]
      intro c hc
      rcases List.mem_append.mp hc with hc | hc
      · exact h.lifetime c hc
      · rw [List.mem_singleton.mp hc]
    · rw [enrolledSince_of_not (enrolls_of_op (by rw [hop]; exact fun _ _ h => by cases h) _ _ _),
        (hcounts now).1]
      exact h.counted now hpast.tail
    · have hle : call.now ≤ now := hpast _ List.mem_cons_self hwrites
      refine (counts_later t source hle).trans ?_
      obtain ⟨hsame, hmore⟩ := hcounts call.now
      by_cases hs : s = source
      · subst hs
        have hfew := hroom nonce hop hdaily
        dsimp only at hfew
        rw [if_pos rfl] at hmore
        omega
      · have hold := h.bounded call.now (horder.past hwrites)
        rw [if_neg hs] at hmore
        omega
  | @consumed nonce s c hop hok hfind hopen =>
    have hwrites : call.op.writesBootstrap = true := by rw [hop]; rfl
    have hlifetime := h.lifetime c (db.bootstrapChallenges.find?_mem hfind)
    have hcounts := counts_consumed hfind hopen hlifetime source
    refine ⟨?_, fun now hpast => ?_, fun now hpast => ?_⟩
    · intro c' hc'
      obtain ⟨c₀, hc₀, rfl⟩ := List.mem_map.mp hc'
      split_ifs
      · exact h.lifetime c₀ hc₀
      · exact h.lifetime c₀ hc₀
    · rw [enrolledSince_consumed hop hok, (hcounts now).1]
      exact Nat.add_le_add_right (h.counted now hpast.tail) _
    · have hle : call.now ≤ now := hpast _ List.mem_cons_self hwrites
      refine (counts_later _ source hle).trans ?_
      obtain ⟨hone, hless⟩ := hcounts call.now
      have hold := h.bounded call.now (horder.past hwrites)
      by_cases hs : s = source
      · have hlive : call.now < c.expiresAt := (of_decide_eq_true hopen).2.1
        rw [if_pos ⟨hs, hlive⟩] at hless
        have hle : (if s = source ∧ call.now < call.now + hours 24 then 1 else 0) ≤ 1 := by
          split_ifs
          · exact le_rfl
          · exact Nat.zero_le 1
        omega
      · rw [if_neg fun h => hs h.1] at hless hone
        omega
  | @pruned limit old hop hold =>
    have hwrites : call.op.writesBootstrap = true := by rw [hop]; rfl
    refine ⟨fun c hc => h.lifetime c (List.mem_of_mem_filter hc), fun now hpast => ?_,
      fun now hpast => ?_⟩
    · have hle : call.now ≤ now := hpast _ List.mem_cons_self hwrites
      rw [enrolledSince_of_not (enrolls_of_op (by rw [hop]; exact fun _ _ h => by cases h) _ _ _),
        (counts_pruned hold hle source).1]
      exact h.counted now hpast.tail
    · have hle : call.now ≤ now := hpast _ List.mem_cons_self hwrites
      obtain ⟨hsame, hless⟩ := counts_pruned hold hle source
      have hbefore := h.bounded now hpast.tail
      omega

theorem quotaKept_of_run (h : StoreRun sha256 tr db) (horder : InTime tr)
    (hroom : ∀ e ∈ tr, RoomFor source e) : QuotaKept sha256 source tr db.bootstrapChallenges := by
  induction h with
  | refl =>
    exact ⟨fun c hc => absurd hc List.not_mem_nil, fun _ _ => le_rfl, fun _ _ => Nat.zero_le _⟩
  | @snoc tr db db' call h hs ih =>
    cases hs
    have hbefore := ih (List.pairwise_cons.mp horder).2 fun e he => hroom e (List.mem_cons_of_mem _ he)
    exact hbefore.step horder (hroom _ List.mem_cons_self) (call_challenges sha256 call db)

/-- The enrollments of the source that were completed in the day from `t`. -/
def enrolledWithin (sha256 : Bytes → Bytes32) (source : IpAddr) (t : Time)
    (tr : List (Event Db Call)) : Nat :=
  tr.countP fun e => Enrolls sha256 source e && decide (t ≤ e.label.now ∧ e.label.now < t + hours 24)

theorem enrolls_writes {e : Event Db Call} (h : Enrolls sha256 source e = true) :
    e.label.op.writesBootstrap = true := by
  unfold Enrolls at h
  split at h
  · rename_i heq
    rw [heq]
    rfl
  · cases h

/-- At the latest enrollment of a day, those of the day are among those of the last twenty-four hours. -/
theorem enrolledWithin_le {e : Event Db Call} {t : Time} (hday : e.label.now < t + hours 24) :
    enrolledWithin sha256 source t (e :: tr) ≤ enrolledSince sha256 source e.label.now (e :: tr) := by
  refine List.countP_mono_left fun e' _ h => ?_
  rw [Bool.and_eq_true, decide_eq_true_iff] at h ⊢
  obtain ⟨henrolls, hfrom, -⟩ := h
  exact ⟨henrolls, hday.trans_le (Nat.add_le_add_right hfrom _)⟩

/-- **The enrollment quota.** In every run whose calls on the challenges commit in the order of their
times and in which a challenge is issued to the source only while its enrollments of the day and its
outstanding challenges are fewer than twenty, the source completes at most twenty enrollments in any
day. -/
theorem enrollment_quota (h : StoreRun sha256 tr db) (horder : InTime tr)
    (hroom : ∀ e ∈ tr, RoomFor source e) (t : Time) : enrolledWithin sha256 source t tr ≤ 20 := by
  induction h with
  | refl => exact Nat.zero_le _
  | @snoc tr db db' call h hs ih =>
    by_cases hin : (Enrolls sha256 source ⟨db, call, db'⟩ &&
        decide (t ≤ call.now ∧ call.now < t + hours 24)) = true
    · -- Count back from this enrollment.
      have hkept := quotaKept_of_run (h.snoc hs) horder hroom
      rw [Bool.and_eq_true, decide_eq_true_iff] at hin
      obtain ⟨henrolls, -, hday⟩ := hin
      have hpast : Past call.now (⟨db, call, db'⟩ :: tr) := by
        intro e he hwrites
        rcases List.mem_cons.mp he with rfl | he
        · exact le_rfl
        · exact horder.past (enrolls_writes henrolls) e he hwrites
      calc enrolledWithin sha256 source t (⟨db, call, db'⟩ :: tr)
          ≤ enrolledSince sha256 source call.now (⟨db, call, db'⟩ :: tr) := enrolledWithin_le hday
        _ ≤ dailyEnrollments db'.bootstrapChallenges source call.now := hkept.counted call.now hpast
        _ ≤ 20 := (Nat.le_add_right _ _).trans (hkept.bounded call.now hpast)
    · unfold enrolledWithin
      rw [List.countP_cons, if_neg hin]
      exact ih (List.pairwise_cons.mp horder).2 fun e he => hroom e (List.mem_cons_of_mem _ he)

/-- A challenge issued to address 192.0.2.1 and consumed at once, the latest call first. -/
def enroll (now : Time) (i : Nat) : List Call :=
  [⟨.default, now, .consumeBootstrapChallenge (String.ofList (List.replicate i 'n')) (.v4 0xc0000201)⟩,
    ⟨.default, now, .createBootstrapChallenge (String.ofList (List.replicate i 'n')) (.v4 0xc0000201)⟩]

/-- Ten enrollments, a minute later `n` more, and a minute later two challenges that are both issued
before either is consumed. -/
def lateChallenges (n : Nat) : List Call :=
  [⟨.default, seconds 122, .consumeBootstrapChallenge "a" (.v4 0xc0000201)⟩,
    ⟨.default, seconds 122, .consumeBootstrapChallenge "b" (.v4 0xc0000201)⟩,
    ⟨.default, seconds 122, .createBootstrapChallenge "a" (.v4 0xc0000201)⟩,
    ⟨.default, seconds 122, .createBootstrapChallenge "b" (.v4 0xc0000201)⟩] ++
  (List.range' 10 n).flatMap (enroll (seconds 61)) ++ (List.range 10).flatMap (enroll 0)

/-- Eighteen enrollments leave room for both challenges, and for no third one. -/
def fullQuota : List Call :=
  ⟨.default, seconds 123, .createBootstrapChallenge "c" (.v4 0xc0000201)⟩ :: lateChallenges 8

theorem enrollment_quota_reached :
    enrolledWithin (fun _ => 0) (.v4 0xc0000201) 0 (runOf (fun _ => 0) fullQuota).1 = 20 ∧
      enrolledWithin (fun _ => 0) (.v4 0xc0000201) 0 (runOf (fun _ => 0) fullQuota).1 ≤ 20 := by
  refine ⟨by decide +kernel, enrollment_quota (storeRun_runOf (fun _ => 0) fullQuota) ?_ ?_ 0⟩
  · show List.Pairwise _ _
    decide +kernel
  · have hroom : (runOf (fun _ => 0) fullQuota).1.all (hasRoom (.v4 0xc0000201)) = true := by
      decide +kernel
    exact fun e he => roomFor_of_hasRoom (List.all_eq_true.mp hroom e he)

theorem enrollment_quota_exceeded :
    StoreRun (fun _ => 0) (runOf (fun _ => 0) (lateChallenges 9)).1
        (runOf (fun _ => 0) (lateChallenges 9)).2 ∧
      enrolledWithin (fun _ => 0) (.v4 0xc0000201) 0 (runOf (fun _ => 0) (lateChallenges 9)).1 = 21 :=
  ⟨storeRun_runOf (fun _ => 0) (lateChallenges 9), by decide +kernel⟩

end BloomRelay.Store
