import BloomRelay.Ct.Worker
import BloomRelay.Ct.Proofs.ConsistencyProofs

/-!
# What the feed can keep a tick from doing

An entry that `observe_ct` refuses ends the tick before its lag and delivery stages. The entries in
front of it are recorded (`Fed`); for every other answer of the feed the tick goes on to both stages.
-/

namespace BloomRelay.Ct

open Protocol Store Checked

variable {db db' : Db} {now : Time} {source : String} {entry : CtEntry} {times : TickTimes}

/-! ## The entries of a batch -/

instance (source : String) (entry : CtEntry) : Decidable (ValidEntry source entry) :=
  decidable_of_iff (validateHostname entry.hostname = .ok () ∧
      validateFingerprint entry.keyFingerprint = .ok () ∧ validateSource source = .ok () ∧
      (0 < entry.position ∧ entry.position < 2 ^ 63))
    ⟨fun ⟨hhost, hprint, hsource, hposition⟩ => ⟨hhost, hprint, hsource, hposition⟩,
      fun h => ⟨h.hostname, h.fingerprint, h.source, h.position⟩⟩

/-- The entries a tick records: those that follow `next` without a gap, up to the first bad one. -/
def accepted (source : String) (next : Nat) : List CtEntry → List CtEntry
  | [] => []
  | entry :: rest =>
    if entry.position = next + 1 ∧ ValidEntry source entry then
      entry :: accepted source (next + 1) rest
    else []

/-- The tick comes to an entry at the next position that is not valid. -/
def refused (source : String) (next : Nat) : List CtEntry → Bool
  | [] => false
  | entry :: rest =>
    if entry.position = next + 1 then
      if ValidEntry source entry then refused source (next + 1) rest else true
    else false

theorem pending_eq_nil_iff (db : Db) (source : String) :
    pendingCtAlerts db source 100 = [] ↔
      ∀ alert ∈ db.ctAlerts.rows, alert.source = source → alert.deliveredAt ≠ none := by
  rw [pendingCtAlerts, List.take_eq_nil_iff, List.filter_eq_nil_iff]
  simp

/-- An expected entry leaves what is pending, an unexpected one adds to it. -/
theorem Records.pending_eq_nil_iff {owner : Option Uuid} {expected : Bool}
    (h : Records db now source entry owner expected db') :
    pendingCtAlerts db' source 100 = [] ↔ pendingCtAlerts db source 100 = [] ∧ expected = true := by
  rw [Ct.pending_eq_nil_iff, Ct.pending_eq_nil_iff]
  have halert := h.alert
  cases expected with
  | true =>
    have hsame : db'.ctAlerts = db.ctAlerts := halert
    rw [hsame]
    exact ⟨fun hnone => ⟨hnone, rfl⟩, fun hnone => hnone.1⟩
  | false =>
    rw [((Table.insert?_eq_some_iff _).mp halert).2]
    constructor
    · intro hnone
      have hnew := hnone (alertOf db now source entry owner)
        (List.mem_append_right _ (List.mem_singleton_self _)) rfl
      exact absurd rfl hnew
    · rintro ⟨-, hfalse⟩
      cases hfalse

/-- When the source was last healthy, the accepted entries counted. -/
def lastHealthy (times : TickTimes) (observedAt : Time) (next : Nat) (entries : List CtEntry) : Time :=
  if entries = [] then observedAt else times.observed (next + entries.length)

/-- The database after the entries a tick records. -/
structure Fed (times : TickTimes) (source : String) (db : Db) (observedAt : Time) (next : Nat)
    (entries : List CtEntry) (db' : Db) : Prop where
  consistent : Consistent db'
  checkpoint : ∃ c, db'.ctFeedCheckpoints.find? source = some c ∧
    c.position = next + entries.length ∧ c.observedAt = lastHealthy times observedAt next entries
  healthAlerts : db'.ctHealthAlerts = db.ctHealthAlerts
  pending : pendingCtAlerts db' source 100 = [] ↔ pendingCtAlerts db source 100 = [] ∧
    ∀ entry ∈ entries, issuanceExpected db entry.hostname entry.keyFingerprint = true

theorem Fed.nil (hdb : Consistent db) {c : CtFeedCheckpoint}
    (hc : db.ctFeedCheckpoints.find? source = some c) :
    Fed times source db c.observedAt c.position [] db := by
  refine ⟨hdb, ⟨c, hc, rfl, rfl⟩, rfl, ?_⟩
  constructor
  · intro hnone
    exact ⟨hnone, fun _ he => absurd he List.not_mem_nil⟩
  · intro hnone
    exact hnone.1

/-- One entry and then the others. -/
theorem Fed.cons {owner : Option Uuid} {db₁ : Db} {entries : List CtEntry} {observedAt : Time}
    {next : Nat} (hnext : entry.position = next + 1)
    (hrec : Records db (times.observed entry.position) source entry owner
      (issuanceExpected db entry.hostname entry.keyFingerprint) db₁)
    (h : Fed times source db₁ (times.observed entry.position) (next + 1) entries db') :
    Fed times source db observedAt next (entry :: entries) db' := by
  obtain ⟨c, hc, hposition, hobserved⟩ := h.checkpoint
  refine ⟨h.consistent, ⟨c, hc, ?_, ?_⟩, h.healthAlerts.trans hrec.healthAlerts, ?_⟩
  · rw [hposition, List.length_cons]
    omega
  · rw [hobserved, lastHealthy, lastHealthy, if_neg (List.cons_ne_nil _ _), List.length_cons]
    by_cases hlast : entries = []
    · rw [if_pos hlast, hlast, hnext]
      rfl
    · rw [if_neg hlast]
      congr 1
      omega
  · have hsame : ∀ e : CtEntry, issuanceExpected db₁ e.hostname e.keyFingerprint =
        issuanceExpected db e.hostname e.keyFingerprint := fun e =>
      issuanceExpected_congr hrec.installations hrec.inventory e.hostname e.keyFingerprint
    rw [h.pending, hrec.pending_eq_nil_iff]
    constructor
    · rintro ⟨⟨hnone, hfirst⟩, hrest⟩
      refine ⟨hnone, fun e he => ?_⟩
      rcases List.mem_cons.mp he with rfl | he
      · exact hfirst
      · rw [← hsame]
        exact hrest e he
    · rintro ⟨hnone, hall⟩
      refine ⟨⟨hnone, hall entry List.mem_cons_self⟩, fun e he => ?_⟩
      rw [hsame]
      exact hall e (List.mem_cons_of_mem _ he)

/-- What the loop over a batch leaves, and how it ends. -/
theorem observeEntries_spec (times : TickTimes) (entries : List CtEntry) (hdb : Consistent db)
    {c : CtFeedCheckpoint} (hc : db.ctFeedCheckpoints.find? source = some c) :
    Fed times source db c.observedAt c.position (accepted source c.position entries)
        (observeEntries times source db c.position entries).1 ∧
      if refused source c.position entries then
        (observeEntries times source db c.position entries).2 = .error .invalidRequest
      else ∃ contiguous, (observeEntries times source db c.position entries).2 =
        .ok (c.position + (accepted source c.position entries).length, contiguous) := by
  induction entries generalizing db c with
  | nil => exact ⟨Fed.nil hdb hc, true, rfl⟩
  | cons entry rest ih =>
    have hposition : ctPosition db source = c.position := by
      rw [ctPosition, hc]
      rfl
    by_cases hnext : entry.position = c.position + 1
    · by_cases hvalid : ValidEntry source entry
      · -- recorded: the loop goes on from the database after it
        obtain ⟨db₁, hobserve, hrec⟩ := observeCt_next (times.observed entry.position) hdb hvalid
          (hnext.trans (congrArg (· + 1) hposition.symm))
        have hc₁ : db₁.ctFeedCheckpoints.find? source =
            some ⟨source, entry.position, times.observed entry.position⟩ := by
          rw [hrec.checkpoint, if_pos rfl]
        have hdb₁ := hdb.record (hnext.trans (congrArg (· + 1) hposition.symm)) hvalid.position.2 hrec
        obtain ⟨hfed, hend⟩ := ih hdb₁ hc₁
        have hloop : observeEntries times source db c.position (entry :: rest) =
            observeEntries times source db₁ (c.position + 1) rest := by
          rw [observeEntries, if_neg (not_not.mpr hnext), hobserve, hnext]
        have haccepted : accepted source c.position (entry :: rest) =
            entry :: accepted source (c.position + 1) rest := by
          rw [accepted, if_pos ⟨hnext, hvalid⟩]
        have hrefused : refused source c.position (entry :: rest) =
            refused source (c.position + 1) rest := by
          rw [refused, if_pos hnext, if_pos hvalid]
        simp only [hnext] at hfed hend
        rw [hloop, haccepted, hrefused]
        refine ⟨Fed.cons hnext hrec (hnext ▸ hfed), ?_⟩
        cases hrest : refused source (c.position + 1) rest with
        | true =>
          rw [hrest, if_pos rfl] at hend
          exact hend
        | false =>
          rw [hrest, if_neg Bool.false_ne_true] at hend
          obtain ⟨contiguous, hend⟩ := hend
          refine ⟨contiguous, hend.trans ?_⟩
          rw [List.length_cons]
          congr 2
          omega
      · have hloop : observeEntries times source db c.position (entry :: rest) =
            (db, .error .invalidRequest) := by
          rw [observeEntries, if_neg (not_not.mpr hnext), observeCt_invalid _ hvalid]
        have haccepted : accepted source c.position (entry :: rest) = [] := by
          rw [accepted, if_neg fun h => hvalid h.2]
        have hrefused : refused source c.position (entry :: rest) = true := by
          rw [refused, if_pos hnext, if_neg hvalid]
        rw [hloop, haccepted, hrefused]
        exact ⟨Fed.nil hdb hc, rfl⟩
    · have hloop : observeEntries times source db c.position (entry :: rest) =
          (db, .ok (c.position, false)) := by
        rw [observeEntries, if_pos hnext]
      have haccepted : accepted source c.position (entry :: rest) = [] := by
        rw [accepted, if_neg fun h => hnext h.1]
      have hrefused : refused source c.position (entry :: rest) = false := by
        rw [refused, if_neg hnext]
      rw [hloop, haccepted, hrefused]
      exact ⟨Fed.nil hdb hc, false, rfl⟩

/-! ## The answer of the feed -/

/-- What of an answer a tick goes through. -/
def batchEntries (worker : Worker) : Option CtBatch → List CtEntry
  | none => []
  | some batch =>
    if batch.source = worker.source ∧ batch.entries.length ≤ 100 then batch.entries else []

/-- The database the tick queues and delivers from, or stops with. -/
def fedDb (worker : Worker) (times : TickTimes) (feed : Option CtBatch) (db : Db) : Db :=
  (worker.consumeFeed times db (ctPosition db worker.source) feed).1

section Feed

variable {worker : Worker} {feed : Option CtBatch} {c : CtFeedCheckpoint}

theorem markCtFeedHealthy_at (hdb : Consistent db) (hvalid : validateSource source = .ok ())
    (hc : db.ctFeedCheckpoints.find? source = some c) (now : Time) :
    markCtFeedHealthy db now source c.position =
      .ok ((), db.modifyCheckpoint source (fun c => { c with observedAt := now }) (fun _ => rfl)) := by
  have hlt : c.position < 2 ^ 63 := by
    have hbounded := hdb.bounded source
    rw [ctPosition, hc] at hbounded
    exact hbounded
  have hi64 : (c.position : Int) = i64OfU64 c.position := (i64OfU64_of_lt hlt).symm
  unfold markCtFeedHealthy
  rw [hvalid, hc]
  simp [Option.filter, found, ← hi64, bind, Except.bind]

/-- An entry that is refused ends the tick with what was recorded before it; every other answer lets
the tick go on. -/
theorem consumeFeed_spec (hdb : Consistent db) (times : TickTimes) (feed : Option CtBatch)
    (hc : db.ctFeedCheckpoints.find? worker.source = some c) :
    if refused worker.source c.position (batchEntries worker feed) then
      (worker.consumeFeed times db c.position feed).2 = .error .invalidRequest ∧
      Fed times worker.source db c.observedAt c.position
        (accepted worker.source c.position (batchEntries worker feed))
        (worker.consumeFeed times db c.position feed).1
    else (worker.consumeFeed times db c.position feed).2 = .ok () ∧
      ∃ c', (worker.consumeFeed times db c.position feed).1.ctFeedCheckpoints.find? worker.source =
        some c' := by
  cases feed with
  | none => exact ⟨rfl, c, hc⟩
  | some batch =>
    by_cases hbatch : batch.source = worker.source ∧ batch.entries.length ≤ 100
    · have hentries : batchEntries worker (some batch) = batch.entries := if_pos hbatch
      obtain ⟨hfed, hend⟩ := observeEntries_spec times batch.entries hdb hc
      rw [hentries]
      cases hloop : observeEntries times worker.source db c.position batch.entries with
      | mk db₁ result =>
        rw [hloop] at hfed hend
        cases hrefused : refused worker.source c.position batch.entries with
        | true =>
          rw [hrefused, if_pos rfl] at hend
          obtain rfl : result = .error .invalidRequest := hend
          have hconsume : worker.consumeFeed times db c.position (some batch) =
              (db₁, .error .invalidRequest) := by
            simp only [Worker.consumeFeed, if_pos hbatch, hloop]
          rw [hconsume]
          exact ⟨rfl, hfed⟩
        | false =>
          rw [hrefused, if_neg Bool.false_ne_true] at hend
          obtain ⟨contiguous, hend⟩ := hend
          obtain rfl : result = .ok (_, contiguous) := hend
          obtain ⟨c₁, hc₁, hposition, -⟩ := hfed.checkpoint
          cases contiguous with
          | false =>
            have hconsume : worker.consumeFeed times db c.position (some batch) = (db₁, .ok ()) := by
              simp only [Worker.consumeFeed, if_pos hbatch, hloop]
            rw [hconsume]
            exact ⟨rfl, c₁, hc₁⟩
          | true =>
            have hhealthy := markCtFeedHealthy_at hfed.consistent worker.valid hc₁ times.healthy
            rw [hposition] at hhealthy
            have hconsume : worker.consumeFeed times db c.position (some batch) =
                (db₁.modifyCheckpoint worker.source
                  (fun c => { c with observedAt := times.healthy }) (fun _ => rfl), .ok ()) := by
              simp only [Worker.consumeFeed, if_pos hbatch, hloop, hhealthy]
            rw [hconsume]
            refine ⟨rfl, { c₁ with observedAt := times.healthy }, ?_⟩
            exact (find_modifyCheckpoint _ _ hc₁ worker.source).trans (if_pos rfl)
    · have hentries : batchEntries worker (some batch) = [] := if_neg hbatch
      have hconsume : worker.consumeFeed times db c.position (some batch) = (db, .ok ()) :=
        if_neg hbatch
      rw [hentries, hconsume]
      exact ⟨rfl, c, hc⟩

end Feed

/-! ## The lag stage -/

/-- The window `queue_ct_lag_alert` queues an alert for. -/
def lagWindow (now : Time) : Nat := (now + seconds 450) / seconds 900

theorem queueCtLagAlert_current {c : CtFeedCheckpoint} (hvalid : validateSource source = .ok ())
    (hc : db.ctFeedCheckpoints.find? source = some c) (hcurrent : ¬ c.observedAt + minutes 15 < now) :
    queueCtLagAlert db now source = .ok ((), db) := by
  have hfilter : (db.ctFeedCheckpoints.find? source).filter
      (fun c => c.observedAt + minutes 15 < now) = none := by
    rw [hc, Option.filter_some, if_neg fun h => hcurrent (of_decide_eq_true h)]
  unfold queueCtLagAlert
  rw [hvalid, hfilter]
  rfl

/-- A due source gets an alert, unless it has one in this window. -/
theorem queueCtLagAlert_eq {c : CtFeedCheckpoint} (hvalid : validateSource source = .ok ())
    (hc : db.ctFeedCheckpoints.find? source = some c) (hdue : c.observedAt + minutes 15 < now) :
    queueCtLagAlert db now source =
      match db.ctHealthAlerts.insert? ⟨db.ctHealthAlerts.rows.length + 1, source, lagWindow now,
        (now - c.observedAt + 500000) / 1000000, now, none⟩ with
      | none => .ok ((), db)
      | some ctHealthAlerts => .ok ((), { db with ctHealthAlerts }.advanceFence) := by
  have hfilter : (db.ctFeedCheckpoints.find? source).filter
      (fun c => c.observedAt + minutes 15 < now) = some c := by
    rw [hc, Option.filter_some, if_pos (decide_eq_true hdue)]
  unfold queueCtLagAlert
  rw [hvalid, hfilter]
  rfl

theorem queueCtLagAlert_due {c : CtFeedCheckpoint} (hvalid : validateSource source = .ok ())
    (hc : db.ctFeedCheckpoints.find? source = some c) (hdue : c.observedAt + minutes 15 < now) :
    ∃ db', queueCtLagAlert db now source = .ok ((), db') ∧ db'.ctAlerts = db.ctAlerts ∧
      db'.ctHealthAlerts.find? (source, lagWindow now) ≠ none ∧
      (db.ctHealthAlerts.find? (source, lagWindow now) ≠ none → db' = db) := by
  rw [queueCtLagAlert_eq hvalid hc hdue]
  cases hins : db.ctHealthAlerts.insert? ⟨db.ctHealthAlerts.rows.length + 1, source, lagWindow now,
      (now - c.observedAt + 500000) / 1000000, now, none⟩ with
  | none =>
    have hthere : db.ctHealthAlerts.find? (source, lagWindow now) ≠ none :=
      (Table.insert?_eq_none_iff _).mp hins
    exact ⟨db, rfl, rfl, hthere, fun _ => rfl⟩
  | some t =>
    have hnew : t.find? (source, lagWindow now) = some _ := Table.find?_insert?_self hins
    refine ⟨_, rfl, rfl, ?_, fun hthere => ?_⟩
    · show t.find? (source, lagWindow now) ≠ none
      rw [hnew]
      exact Option.some_ne_none _
    · exact absurd ((Table.insert?_eq_some_iff _).mp hins).1 hthere

/-! ## Delivery -/

/-- With a sink that answers 202 a loop posts and marks everything. -/
theorem deliverEach_accepting {α : Type} (post : α → Post) (mark : Db → α → Db) (alerts : List α)
    (db : Db) :
    deliverEach (fun _ => true) post mark db alerts =
      (alerts.foldl mark db, alerts.map post, true) := by
  induction alerts generalizing db with
  | nil => rfl
  | cons alert rest ih =>
    rw [deliverEach, if_pos rfl, ih]
    rfl

section Marks

/- A loop of marks on a table: `set a` is what the mark of `a` does to a row, `number` the number of a
row and `stamp` its mark. -/
variable {α ρ : Type} {mark : Db → α → Db} {rows : Db → List ρ} {set : α → ρ → ρ} {number : ρ → Nat}
  {id : α → Nat} {stamp : ρ → Option Time}

theorem foldl_rows (hrows : ∀ db a, rows (mark db a) = (rows db).map (set a)) (alerts : List α)
    (db : Db) :
    rows (alerts.foldl mark db) = (rows db).map fun r => alerts.foldl (fun r a => set a r) r := by
  induction alerts generalizing db with
  | nil => exact (List.map_id _).symm
  | cons a rest ih =>
    rw [List.foldl_cons, ih, hrows, List.map_map]
    rfl

theorem foldl_number (hnumber : ∀ a r, number (set a r) = number r) (alerts : List α) (r : ρ) :
    number (alerts.foldl (fun r a => set a r) r) = number r := by
  induction alerts generalizing r with
  | nil => rfl
  | cons a rest ih => exact (ih (set a r)).trans (hnumber a r)

theorem foldl_stamp (hnumber : ∀ a r, number (set a r) = number r)
    (hstamp : ∀ a r, number r = id a ∨ stamp r ≠ none → stamp (set a r) ≠ none) (alerts : List α)
    {r : ρ} (h : stamp r ≠ none ∨ ∃ a ∈ alerts, number r = id a) :
    stamp (alerts.foldl (fun r a => set a r) r) ≠ none := by
  induction alerts generalizing r with
  | nil =>
    rcases h with h | ⟨a, hmem, -⟩
    · exact h
    · exact absurd hmem List.not_mem_nil
  | cons a rest ih =>
    refine ih ?_
    rcases h with h | ⟨other, hmem, hother⟩
    · exact .inl (hstamp a r (.inr h))
    · rcases List.mem_cons.mp hmem with rfl | hmem
      · exact .inl (hstamp other r (.inl hother))
      · exact .inr ⟨other, hmem, (hnumber a r).trans hother⟩

/-- After the loop everything on the list is marked. -/
theorem foldl_marks (rows : Db → List ρ) (set : α → ρ → ρ) (number : ρ → Nat) (id : α → Nat)
    (stamp : ρ → Option Time) (hrows : ∀ db a, rows (mark db a) = (rows db).map (set a))
    (hnumber : ∀ a r, number (set a r) = number r)
    (hstamp : ∀ a r, number r = id a ∨ stamp r ≠ none → stamp (set a r) ≠ none) {alerts : List α}
    {a : α} (hmem : a ∈ alerts) {r : ρ} (hr : r ∈ rows db) (hid : number r = id a) :
    ∃ r' ∈ rows (alerts.foldl mark db), number r' = id a ∧ stamp r' ≠ none := by
  refine ⟨alerts.foldl (fun r a => set a r) r, ?_, (foldl_number hnumber alerts r).trans hid,
    foldl_stamp hnumber hstamp alerts (.inr ⟨a, hmem, hid⟩)⟩
  rw [foldl_rows hrows]
  exact List.mem_map_of_mem hr

end Marks

/-- The alert is in the database, marked as delivered. -/
def Delivered (db : Db) (alert : CtAlert) : Prop :=
  ∃ row ∈ db.ctAlerts.rows, row.id = alert.id ∧ row.deliveredAt ≠ none

def LagDelivered (db : Db) (alert : CtHealthAlert) : Prop :=
  ∃ row ∈ db.ctHealthAlerts.rows, row.id = alert.id ∧ row.deliveredAt ≠ none

/-- The loop over the issuance alerts. -/
def markAlerts (times : TickTimes) (alerts : List CtAlert) (db : Db) : Db :=
  alerts.foldl (fun db alert => markCtAlertDelivered db (times.delivered alert.id) alert.id) db

/-- The loop over the lag alerts. -/
def markLagAlerts (times : TickTimes) (alerts : List CtHealthAlert) (db : Db) : Db :=
  alerts.foldl (fun db alert => markCtLagAlertDelivered db (times.delivered alert.id) alert.id) db

theorem markAlerts_delivers (times : TickTimes) {alerts : List CtAlert} {alert : CtAlert}
    (hmem : alert ∈ alerts) (hrow : alert ∈ db.ctAlerts.rows) :
    Delivered (markAlerts times alerts db) alert := by
  refine foldl_marks (fun db => db.ctAlerts.rows) (fun a => delivered (times.delivered a.id) a.id)
    CtAlert.id CtAlert.id CtAlert.deliveredAt
    (fun db a => rows_markCtAlertDelivered db (times.delivered a.id) a.id)
    (fun a r => id_delivered _ _ r) (fun a r h => ?_) hmem hrow rfl
  unfold delivered
  split
  · exact Option.some_ne_none _
  · rename_i hnot
    rcases h with hid | hne
    · exact fun hnone => hnot ⟨hid, hnone⟩
    · exact hne

/-- The row of a lag alert after `mark_ct_lag_alert_delivered` of alert `id`. -/
def lagDelivered (now : Time) (id : Nat) (a : CtHealthAlert) : CtHealthAlert :=
  if a.id = id ∧ a.deliveredAt = none then { a with deliveredAt := some now } else a

theorem ctHealthAlerts_markCtLagAlertDelivered (db : Db) (now : Time) (id : Nat) :
    (markCtLagAlertDelivered db now id).ctHealthAlerts =
      db.ctHealthAlerts.updateWhere (fun a => a.id = id ∧ a.deliveredAt = none)
        (fun a => { a with deliveredAt := some now }) (fun _ => rfl) := by
  unfold markCtLagAlertDelivered
  split
  · rfl
  · rename_i hnone
    exact (Table.updateWhere_eq_self _ _ _ (Bool.eq_false_iff.mpr hnone)).symm

theorem rows_markCtLagAlertDelivered (db : Db) (now : Time) (id : Nat) :
    (markCtLagAlertDelivered db now id).ctHealthAlerts.rows =
      db.ctHealthAlerts.rows.map (lagDelivered now id) := by
  rw [ctHealthAlerts_markCtLagAlertDelivered, Table.rows_updateWhere]
  refine List.map_congr_left fun a _ => ?_
  simp only [lagDelivered, decide_eq_true_eq]

theorem markLagAlerts_delivers (times : TickTimes) {alerts : List CtHealthAlert}
    {alert : CtHealthAlert} (hmem : alert ∈ alerts) (hrow : alert ∈ db.ctHealthAlerts.rows) :
    LagDelivered (markLagAlerts times alerts db) alert := by
  refine foldl_marks (fun db => db.ctHealthAlerts.rows)
    (fun a => lagDelivered (times.delivered a.id) a.id) CtHealthAlert.id CtHealthAlert.id
    CtHealthAlert.deliveredAt
    (fun db a => rows_markCtLagAlertDelivered db (times.delivered a.id) a.id)
    (fun a r => ?_) (fun a r h => ?_) hmem hrow rfl
  · unfold lagDelivered
    split
    · rfl
    · rfl
  · unfold lagDelivered
    split
    · exact Option.some_ne_none _
    · rename_i hnot
      rcases h with hid | hne
      · exact fun hnone => hnot ⟨hid, hnone⟩
      · exact hne

theorem markAlerts_healthAlerts (times : TickTimes) (alerts : List CtAlert) (db : Db) :
    (markAlerts times alerts db).ctHealthAlerts = db.ctHealthAlerts := by
  unfold markAlerts
  induction alerts generalizing db with
  | nil => rfl
  | cons alert rest ih =>
    rw [List.foldl_cons, ih]
    exact (markCtAlertDelivered_keeps db _ alert.id).2.2.1

/-- A mark removes no alert. -/
theorem markLagAlerts_find (times : TickTimes) (alerts : List CtHealthAlert) {key : String × Nat}
    (h : db.ctHealthAlerts.find? key ≠ none) :
    (markLagAlerts times alerts db).ctHealthAlerts.find? key ≠ none := by
  unfold markLagAlerts
  induction alerts generalizing db with
  | nil => exact h
  | cons alert rest ih =>
    refine ih ?_
    rw [ctHealthAlerts_markCtLagAlertDelivered, Table.find?_updateWhere]
    exact fun hnone => h (Option.map_eq_none_iff.mp hnone)

theorem markLagAlerts_alerts (times : TickTimes) (alerts : List CtHealthAlert) (db : Db) :
    (markLagAlerts times alerts db).ctAlerts = db.ctAlerts := by
  unfold markLagAlerts
  induction alerts generalizing db with
  | nil => rfl
  | cons alert rest ih =>
    rw [List.foldl_cons, ih]
    obtain h | ⟨t, h⟩ := markCtLagAlertDelivered_cases db (times.delivered alert.id) alert.id
    · rw [h]
    · rw [h]
      rfl

theorem deliver_accepting (worker : Worker) (times : TickTimes) (db : Db) :
    worker.deliver times (fun _ => true) db =
      ⟨markLagAlerts times (pendingCtLagAlerts db worker.source 100)
          (markAlerts times (pendingCtAlerts db worker.source 100) db),
        (pendingCtAlerts db worker.source 100).map issuancePost ++
          (pendingCtLagAlerts db worker.source 100).map lagPost, .ok ()⟩ := by
  have hpending : pendingCtLagAlerts (markAlerts times (pendingCtAlerts db worker.source 100) db)
      worker.source 100 = pendingCtLagAlerts db worker.source 100 := by
    rw [pendingCtLagAlerts, markAlerts_healthAlerts]
    rfl
  simp only [Worker.deliver, deliverEach_accepting]
  rw [← markAlerts, hpending]
  rfl

/-! ## The tick -/

section Tick

/-- The database from which a tick delivers, or from which it would have. -/
def queuedDb (worker : Worker) (times : TickTimes) (feed : Option CtBatch) (db : Db) : Db :=
  match queueCtLagAlert (fedDb worker times feed db) times.lag worker.source with
  | .ok (_, queued) => queued
  | .error _ => fedDb worker times feed db

/-- What a tick owes after the stage of the feed, whatever the feed has answered. -/
structure Attended (worker : Worker) (times : TickTimes) (feed : Option CtBatch) (db : Db)
    (out : Ticked) : Prop where
  /-- A source that was last healthy more than 15 minutes ago has an alert in the window. -/
  queued : ∀ c, (fedDb worker times feed db).ctFeedCheckpoints.find? worker.source = some c →
    c.observedAt + minutes 15 < times.lag →
    out.db.ctHealthAlerts.find? (worker.source, lagWindow times.lag) ≠ none
  /-- The pending issuance alerts are posted and marked, up to the limit of the batch. -/
  issuance : ∀ alert ∈ pendingCtAlerts (queuedDb worker times feed db) worker.source 100,
    issuancePost alert ∈ out.posts ∧ Delivered out.db alert
  /-- So are the lag alerts. -/
  lag : ∀ alert ∈ pendingCtLagAlerts (queuedDb worker times feed db) worker.source 100,
    lagPost alert ∈ out.posts ∧ LagDelivered out.db alert

/-- An answer in which the tick comes to a bad entry at the next position. -/
def RefusedBy (worker : Worker) (db : Db) (feed : Option CtBatch) : Prop :=
  refused worker.source (ctPosition db worker.source) (batchEntries worker feed) = true

/-- Nothing is pending or becomes due with the entries in front of the bad one. -/
structure NothingDue (worker : Worker) (times : TickTimes) (feed : Option CtBatch) (db : Db)
    (observedAt : Time) : Prop where
  issuance : pendingCtAlerts db worker.source 100 = []
  expected : ∀ entry ∈ accepted worker.source (ctPosition db worker.source) (batchEntries worker feed),
    issuanceExpected db entry.hostname entry.keyFingerprint = true
  lag : pendingCtLagAlerts db worker.source 100 = []
  window : lastHealthy times observedAt (ctPosition db worker.source)
      (accepted worker.source (ctPosition db worker.source) (batchEntries worker feed)) +
        minutes 15 < times.lag →
    db.ctHealthAlerts.find? (worker.source, lagWindow times.lag) ≠ none

variable {worker : Worker} {feed : Option CtBatch} {c : CtFeedCheckpoint}

theorem ctPosition_of_find (hc : db.ctFeedCheckpoints.find? source = some c) :
    ctPosition db source = c.position := by
  rw [ctPosition, hc]
  rfl

theorem ctCheckpoint_of_find (hvalid : validateSource source = .ok ())
    (hc : db.ctFeedCheckpoints.find? source = some c) :
    ctCheckpoint db source = .ok (some (ctPosition db source)) := by
  rw [ctCheckpoint, hvalid, hc, ctPosition_of_find hc]
  rfl

/-- The tick that comes to a bad entry. -/
theorem tick_refused (hdb : Consistent db) (times : TickTimes) (sink : Post → Bool)
    (hc : db.ctFeedCheckpoints.find? worker.source = some c) (h : RefusedBy worker db feed) :
    worker.tick times sink feed db =
        ⟨fedDb worker times feed db, [], .error (.store .invalidRequest)⟩ ∧
      Fed times worker.source db c.observedAt (ctPosition db worker.source)
        (accepted worker.source (ctPosition db worker.source) (batchEntries worker feed))
        (fedDb worker times feed db) := by
  have hspec := consumeFeed_spec hdb times feed hc
  rw [← ctPosition_of_find hc, h, if_pos rfl] at hspec
  obtain ⟨hresult, hfed⟩ := hspec
  refine ⟨?_, hfed⟩
  unfold fedDb
  cases hconsume : worker.consumeFeed times db (ctPosition db worker.source) feed with
  | mk db₁ result =>
    rw [hconsume] at hresult
    obtain rfl : result = .error .invalidRequest := hresult
    simp only [Worker.tick, ctCheckpoint_of_find worker.valid hc, hconsume]

/-- Every other tick delivers what is pending after its lag stage. -/
theorem tick_passed (hdb : Consistent db) (times : TickTimes) (sink : Post → Bool)
    (hc : db.ctFeedCheckpoints.find? worker.source = some c) (h : ¬ RefusedBy worker db feed) :
    worker.tick times sink feed db = worker.deliver times sink (queuedDb worker times feed db) ∧
      ∀ c', (fedDb worker times feed db).ctFeedCheckpoints.find? worker.source = some c' →
        c'.observedAt + minutes 15 < times.lag →
        (queuedDb worker times feed db).ctHealthAlerts.find? (worker.source, lagWindow times.lag) ≠
          none := by
  have hspec := consumeFeed_spec hdb times feed hc
  rw [RefusedBy] at h
  rw [← ctPosition_of_find hc, if_neg h] at hspec
  obtain ⟨hresult, c₁, hc₁⟩ := hspec
  have hqueue : queueCtLagAlert (fedDb worker times feed db) times.lag worker.source =
      .ok ((), queuedDb worker times feed db) ∧
        ∀ c', (fedDb worker times feed db).ctFeedCheckpoints.find? worker.source = some c' →
          c'.observedAt + minutes 15 < times.lag →
          (queuedDb worker times feed db).ctHealthAlerts.find? (worker.source, lagWindow times.lag) ≠
            none := by
    by_cases hdue : c₁.observedAt + minutes 15 < times.lag
    · obtain ⟨db₂, hok, -, hwindow, -⟩ := queueCtLagAlert_due worker.valid hc₁ hdue
      have hqueued : queuedDb worker times feed db = db₂ := by
        rw [queuedDb, fedDb, hok]
      rw [hqueued]
      exact ⟨hok, fun _ _ _ => hwindow⟩
    · have hok := queueCtLagAlert_current worker.valid hc₁ hdue
      have hqueued : queuedDb worker times feed db = fedDb worker times feed db := by
        rw [queuedDb, fedDb, hok]
      rw [hqueued]
      refine ⟨hok, fun c' hc' hlate => ?_⟩
      have hsame : c' = c₁ := Option.some.inj (hc'.symm.trans hc₁)
      rw [hsame] at hlate
      exact absurd hlate hdue
  refine ⟨?_, hqueue.2⟩
  have hok := hqueue.1
  unfold fedDb at hok
  cases hconsume : worker.consumeFeed times db (ctPosition db worker.source) feed with
  | mk db₁ result =>
    rw [hconsume] at hresult hok
    obtain rfl : result = .ok () := hresult
    simp only [Worker.tick, ctCheckpoint_of_find worker.valid hc, hconsume, hok]

theorem attended_of_passed (hdb : Consistent db) (times : TickTimes)
    (hc : db.ctFeedCheckpoints.find? worker.source = some c) (h : ¬ RefusedBy worker db feed) :
    Attended worker times feed db (worker.tick times (fun _ => true) feed db) := by
  obtain ⟨htick, hwindow⟩ := tick_passed hdb times (fun _ => true) hc h
  rw [htick, deliver_accepting]
  refine ⟨fun c' hc' hlate => ?_, fun alert hmem => ⟨?_, ?_⟩, fun alert hmem => ⟨?_, ?_⟩⟩
  · refine markLagAlerts_find times _ ?_
    rw [markAlerts_healthAlerts]
    exact hwindow c' hc' hlate
  · exact List.mem_append_left _ (List.mem_map_of_mem hmem)
  · have hrow := (List.mem_filter.mp (List.mem_of_mem_take hmem)).1
    unfold Delivered
    rw [markLagAlerts_alerts]
    exact markAlerts_delivers times hmem hrow
  · exact List.mem_append_right _ (List.mem_map_of_mem hmem)
  · have hrow := (List.mem_filter.mp (List.mem_of_mem_take hmem)).1
    refine markLagAlerts_delivers times hmem ?_
    rw [markAlerts_healthAlerts]
    exact hrow

/-- No alert is queued for a source that is not late, or whose window has one. -/
theorem queuedDb_eq_fedDb
    (hc : (fedDb worker times feed db).ctFeedCheckpoints.find? worker.source = some c)
    (h : c.observedAt + minutes 15 < times.lag →
      (fedDb worker times feed db).ctHealthAlerts.find? (worker.source, lagWindow times.lag) ≠ none) :
    queuedDb worker times feed db = fedDb worker times feed db := by
  unfold queuedDb
  by_cases hdue : c.observedAt + minutes 15 < times.lag
  · obtain ⟨db₂, hok, -, -, hsame⟩ := queueCtLagAlert_due worker.valid hc hdue
    rw [hok]
    exact hsame (h hdue)
  · rw [queueCtLagAlert_current worker.valid hc hdue]

theorem pendingCtLagAlerts_congr (h : db'.ctHealthAlerts = db.ctHealthAlerts) (limit : Nat) :
    pendingCtLagAlerts db' source limit = pendingCtLagAlerts db source limit := by
  rw [pendingCtLagAlerts, h]
  rfl

/-- A tick that comes to a bad entry posts nothing, so it owes nothing only if there is nothing to
post and nothing to queue. -/
theorem attended_iff_of_refused (hdb : Consistent db) (times : TickTimes)
    (hc : db.ctFeedCheckpoints.find? worker.source = some c) (h : RefusedBy worker db feed) :
    Attended worker times feed db (worker.tick times (fun _ => true) feed db) ↔
      NothingDue worker times feed db c.observedAt := by
  obtain ⟨htick, hfed⟩ := tick_refused hdb times (fun _ => true) hc h
  obtain ⟨c', hc', -, hobserved⟩ := hfed.checkpoint
  rw [htick]
  constructor
  · intro hattended
    have hwindow := hattended.queued c' hc'
    have hqueued := queuedDb_eq_fedDb hc' hwindow
    have hissuance : pendingCtAlerts (fedDb worker times feed db) worker.source 100 = [] := by
      refine List.eq_nil_iff_forall_not_mem.mpr fun alert hmem => ?_
      exact List.not_mem_nil (hattended.issuance alert (hqueued ▸ hmem)).1
    have hlag : pendingCtLagAlerts (fedDb worker times feed db) worker.source 100 = [] := by
      refine List.eq_nil_iff_forall_not_mem.mpr fun alert hmem => ?_
      exact List.not_mem_nil (hattended.lag alert (hqueued ▸ hmem)).1
    obtain ⟨hnone, hexpected⟩ := hfed.pending.mp hissuance
    rw [pendingCtLagAlerts_congr hfed.healthAlerts] at hlag
    rw [hobserved, hfed.healthAlerts] at hwindow
    exact ⟨hnone, hexpected, hlag, hwindow⟩
  · intro hnothing
    have hwindow := hnothing.window
    rw [← hobserved, ← hfed.healthAlerts] at hwindow
    have hqueued := queuedDb_eq_fedDb hc' hwindow
    have hissuance := hfed.pending.mpr ⟨hnothing.issuance, hnothing.expected⟩
    have hlag := hnothing.lag
    rw [← pendingCtLagAlerts_congr hfed.healthAlerts] at hlag
    refine ⟨fun c'' hc'' hlate => ?_, ?_, ?_⟩
    · obtain rfl : c'' = c' := Option.some.inj (hc''.symm.trans hc')
      exact hwindow hlate
    · rw [hqueued, hissuance]
      exact fun _ hmem => absurd hmem List.not_mem_nil
    · rw [hqueued, hlag]
      exact fun _ hmem => absurd hmem List.not_mem_nil

/-- A tick attends to lag and delivery exactly when the feed gives it no bad entry at the next
position, or nothing is due. -/
theorem tick_attends_iff (sha256 : Bytes → Bytes32) (tr : List (Event Db Call)) (db : Db)
    (h : StoreRun sha256 tr db) (worker : Worker) (c : CtFeedCheckpoint)
    (hc : db.ctFeedCheckpoints.find? worker.source = some c) (times : TickTimes)
    (feed : Option CtBatch) :
    Attended worker times feed db (worker.tick times (fun _ => true) feed db) ↔
      ¬ RefusedBy worker db feed ∨ NothingDue worker times feed db c.observedAt := by
  by_cases hrefused : RefusedBy worker db feed
  · rw [attended_iff_of_refused (consistent_run h) times hc hrefused]
    exact ⟨.inr, fun hor => hor.resolve_left fun hnot => hnot hrefused⟩
  · exact ⟨fun _ => .inl hrefused, fun _ => attended_of_passed (consistent_run h) times hc hrefused⟩

/-- A bad entry in front ends every tick that gets it, with the database as it was: while the feed
keeps answering it, nothing is queued and nothing is sent. -/
theorem tick_bad_front (times : TickTimes) (sink : Post → Bool) {batch : CtBatch} {rest : List CtEntry}
    (hc : db.ctFeedCheckpoints.find? worker.source = some c)
    (hbatch : batch.source = worker.source ∧ batch.entries.length ≤ 100)
    (hentries : batch.entries = entry :: rest) (hnext : entry.position = ctPosition db worker.source + 1)
    (hbad : ¬ ValidEntry worker.source entry) :
    worker.tick times sink (some batch) db = ⟨db, [], .error (.store .invalidRequest)⟩ := by
  have hloop : observeEntries times worker.source db (ctPosition db worker.source) batch.entries =
      (db, .error .invalidRequest) := by
    rw [hentries, observeEntries, if_neg (not_not.mpr hnext), observeCt_invalid _ hbad]
  simp only [Worker.tick, ctCheckpoint_of_find worker.valid hc, Worker.consumeFeed, if_pos hbatch, hloop]

end Tick

/-! ## A wildcard name -/

/-- An issuance that nobody has reported is recorded, and its alert is pending. -/
def unexpectedCalls : List Call :=
  [⟨.default, 20, .observeCt "fixture" 1 "abcdefghijklmnopqrstuvwxyz.relay.bloom.directory"
      "bbbbbbbbbbbbbbbbbbbbbbbbbbbbbbbbbbbbbbbbbbbbbbbbbbbbbbbbbbbbbbbb"⟩,
    ⟨.default, 10, .ensureCtSource "fixture"⟩]

def fixture : Worker := ⟨"fixture", by decide⟩

/-- The next entry of the log is for a wildcard name. -/
def wildcard : CtBatch :=
  ⟨"fixture", [⟨2, "*.relay.bloom.directory",
    "aaaaaaaaaaaaaaaaaaaaaaaaaaaaaaaaaaaaaaaaaaaaaaaaaaaaaaaaaaaaaaaa"⟩]⟩

theorem unexpectedCalls_checkpoint : (runOf (fun _ => 0) unexpectedCalls).2.ctFeedCheckpoints.find?
    fixture.source = some ⟨"fixture", 1, 20⟩ := by
  decide +kernel

/-- A database with a pending alert, and a feed whose every answer begins with the wildcard name: no
tick at any time sends that alert or queues one about the lag. -/
theorem wildcard_silences_monitor :
    StoreRun (fun _ => 0) (runOf (fun _ => 0) unexpectedCalls).1 (runOf (fun _ => 0) unexpectedCalls).2 ∧
      (pendingCtAlerts (runOf (fun _ => 0) unexpectedCalls).2 "fixture" 100).length = 1 ∧
      (runOf (fun _ => 0) unexpectedCalls).2.ctHealthAlerts.rows = [] ∧
      ∀ times : TickTimes,
        fixture.tick times (fun _ => true) (some wildcard) (runOf (fun _ => 0) unexpectedCalls).2 =
          ⟨(runOf (fun _ => 0) unexpectedCalls).2, [], .error (.store .invalidRequest)⟩ ∧
        ¬ Attended fixture times (some wildcard) (runOf (fun _ => 0) unexpectedCalls).2
          (fixture.tick times (fun _ => true) (some wildcard)
            (runOf (fun _ => 0) unexpectedCalls).2) := by
  have hrun := storeRun_runOf (fun _ => 0) unexpectedCalls
  have hpending : (pendingCtAlerts (runOf (fun _ => 0) unexpectedCalls).2 "fixture" 100).length = 1 := by
    decide +kernel
  refine ⟨hrun, hpending, by decide +kernel, fun times => ⟨?_, fun hattended => ?_⟩⟩
  · exact tick_bad_front times _ unexpectedCalls_checkpoint ⟨rfl, by decide⟩ rfl (by decide +kernel)
      (by decide +kernel)
  · have hrefused : RefusedBy fixture (runOf (fun _ => 0) unexpectedCalls).2 (some wildcard) := by
      unfold RefusedBy
      decide +kernel
    have hnothing := (attended_iff_of_refused (consistent_run hrun) times unexpectedCalls_checkpoint
      hrefused).mp hattended
    have hnone : pendingCtAlerts (runOf (fun _ => 0) unexpectedCalls).2 "fixture" 100 = [] :=
      hnothing.issuance
    rw [hnone] at hpending
    cases hpending

/-- With the feed down an hour later both alerts are sent. -/
theorem tick_attends_iff_outage :
    Attended fixture ⟨fun _ => 30, 30, hours 1, fun _ => hours 1⟩ none
      (runOf (fun _ => 0) unexpectedCalls).2
      (fixture.tick ⟨fun _ => 30, 30, hours 1, fun _ => hours 1⟩ (fun _ => true) none
        (runOf (fun _ => 0) unexpectedCalls).2) := by
  refine (tick_attends_iff (fun _ => 0) _ _ (storeRun_runOf (fun _ => 0) unexpectedCalls) fixture
    ⟨"fixture", 1, 20⟩ unexpectedCalls_checkpoint _ none).mpr (.inl fun hrefused => ?_)
  cases hrefused

end BloomRelay.Ct
