import BloomRelay.Ct.Proofs.ConsistencyProofs

/-!
# No unexpected issuance is lost

What a step can do to the database, to the open transaction of a source and to a worker is said once
(`step_db`, `step_txs`, `step_workers`). The invariants follow: the tables agree, an open transaction is
at the next position of its source, its verdict is the one of its lookup, and what a worker is about to
mark has been accepted by the sink.
-/

namespace BloomRelay.Ct

open Protocol Store Checked

namespace Monitor

variable {sha256 : Bytes → Bytes32} {s s' : Monitor} {a : MonitorAction}
  {tr : List (Event Monitor MonitorAction)}

/-! ## What a step can do -/

theorem committed_cases (db : Db) (r : Except StoreError Db) :
    committed db r = db ∨ r = .ok (committed db r) := by
  cases r with
  | error e => exact .inl rfl
  | ok db' =>
    by_cases hin : db'.inRange = true
    · exact .inr (by simp [committed, hin])
    · exact .inl (by simp [committed, hin])

theorem step_db (h : Step sha256 s a s') :
    s'.db = s.db ∨
      (∃ call, a = .call call ∧ isStaged call.op = false ∧ s'.db = call.after sha256 s.db) ∨
      (∃ source tx owner expected, a = .commit source ∧
        s.txs source = some (tx, .decided owner expected) ∧ s'.txs source = none ∧
        recordVerdict s.db tx.now tx.source tx.entry owner expected = .ok s'.db) ∨
      ∃ w now alert rest, a = .mark w now ∧ s.workers w = .accepted alert rest ∧
        s'.db = markCtAlertDelivered s.db now alert.id := by
  unfold Step at h
  cases a with
  | call call =>
    simp only [step] at h
    split at h
    · cases h
    · rename_i hstaged
      cases h
      exact .inr (.inl ⟨call, rfl, Bool.eq_false_iff.mpr hstaged, rfl⟩)
  | start tx =>
    simp only [step] at h
    split at h
    · cases h
    · split at h
      · cases h
        exact .inl rfl
      · cases h
        exact .inl rfl
  | lookupOwner source =>
    simp only [step] at h
    split at h
    · split at h
      · cases h
        exact .inl rfl
      · cases h
        exact .inl rfl
    · cases h
  | lookupInventory source =>
    simp only [step] at h
    split at h
    · cases h
      exact .inl rfl
    · cases h
  | commit source =>
    simp only [step] at h
    split at h
    · rename_i tx owner expected htx
      cases h
      rcases committed_cases s.db
        (recordVerdict s.db tx.now tx.source tx.entry owner expected) with hsame | hok
      · exact .inl hsame
      · exact .inr (.inr (.inl ⟨source, tx, owner, expected, rfl, htx, Function.update_self .., hok⟩))
    · cases h
  | rollback source =>
    cases h
    exact .inl rfl
  | list w source =>
    simp only [step] at h
    split at h
    · cases h
      exact .inl rfl
    · cases h
  | post w status =>
    simp only [step] at h
    split at h
    · cases h
      exact .inl rfl
    · cases h
  | mark w now =>
    simp only [step] at h
    split at h
    · rename_i alert rest hw
      cases h
      rcases committed_cases s.db (.ok (markCtAlertDelivered s.db now alert.id)) with hsame | hok
      · exact .inl hsame
      · exact .inr (.inr (.inr ⟨w, now, alert, rest, rfl, hw, (Except.ok.inj hok).symm⟩))
    · cases h
  | crash w =>
    cases h
    exact .inl rfl

/-- The stage after the lookup of the owner. -/
def ownerStage : Option Uuid → Stage
  | none => .decided none false
  | some id => .owned id

theorem step_txs (h : Step sha256 s a s') (source : String) :
    s'.txs source = s.txs source ∨ s'.txs source = none ∨
      (∃ tx, a = .start tx ∧ tx.source = source ∧ observeStart s.db source tx.entry = .ok none ∧
        s'.db = s.db ∧ s'.txs source = some (tx, .locked)) ∨
      (∃ tx, a = .lookupOwner source ∧ s.txs source = some (tx, .locked) ∧ s'.db = s.db ∧
        s'.txs source = some (tx, ownerStage (ownerOf s.db tx.entry.hostname))) ∨
      ∃ tx id, a = .lookupInventory source ∧ s.txs source = some (tx, .owned id) ∧ s'.db = s.db ∧
        s'.txs source = some (tx, .decided (some id)
          (s.db.certificateInventory.find? (id, tx.entry.keyFingerprint)).isSome) := by
  -- an action on another source leaves the transaction of this one
  have hother : ∀ source' v, source' ≠ source →
      Function.update s.txs source' v source = s.txs source := fun source' v hne =>
    Function.update_of_ne (Ne.symm hne) v s.txs
  unfold Step at h
  cases a with
  | call call =>
    simp only [step] at h
    split at h
    · cases h
    · cases h
      exact .inl rfl
  | start tx =>
    simp only [step] at h
    split at h
    · cases h
    · split at h
      · rename_i hstart
        cases h
        by_cases hsource : tx.source = source
        · subst hsource
          exact .inr (.inr (.inl ⟨tx, rfl, rfl, hstart, rfl, Function.update_self ..⟩))
        · exact .inl (hother _ _ hsource)
      · cases h
        exact .inl rfl
  | lookupOwner source' =>
    simp only [step] at h
    split at h
    · rename_i tx htx
      by_cases hsource : source' = source
      · subst hsource
        refine .inr (.inr (.inr (.inl ⟨tx, rfl, htx, ?_⟩)))
        split at h
        · rename_i howner
          cases h
          rw [howner]
          exact ⟨rfl, Function.update_self ..⟩
        · rename_i id howner
          cases h
          rw [howner]
          exact ⟨rfl, Function.update_self ..⟩
      · left
        split at h
        · cases h
          exact hother _ _ hsource
        · cases h
          exact hother _ _ hsource
    · cases h
  | lookupInventory source' =>
    simp only [step] at h
    split at h
    · rename_i tx id htx
      cases h
      by_cases hsource : source' = source
      · subst hsource
        exact .inr (.inr (.inr (.inr ⟨tx, id, rfl, htx, rfl, Function.update_self ..⟩)))
      · exact .inl (hother _ _ hsource)
    · cases h
  | commit source' =>
    simp only [step] at h
    split at h
    · cases h
      by_cases hsource : source' = source
      · subst hsource
        exact .inr (.inl (Function.update_self ..))
      · exact .inl (hother _ _ hsource)
    · cases h
  | rollback source' =>
    cases h
    by_cases hsource : source' = source
    · subst hsource
      exact .inr (.inl (Function.update_self ..))
    · exact .inl (hother _ _ hsource)
  | list w source' =>
    simp only [step] at h
    split at h
    · cases h
      exact .inl rfl
    · cases h
  | post w status =>
    simp only [step] at h
    split at h
    · cases h
      exact .inl rfl
    · cases h
  | mark w now =>
    simp only [step] at h
    split at h
    · cases h
      exact .inl rfl
    · cases h
  | crash w =>
    cases h
    exact .inl rfl

theorem step_workers (h : Step sha256 s a s') (w : Nat) :
    s'.workers w = s.workers w ∨ s'.workers w = .idle ∨
      (∃ source, s'.db = s.db ∧ s'.workers w = .posting (pendingCtAlerts s.db source 100)) ∨
      (∃ alert rest, a = .post w 202 ∧ s'.db = s.db ∧ s.workers w = .posting (alert :: rest) ∧
        s'.workers w = .accepted alert rest) ∨
      ∃ alert rest, s.workers w = .accepted alert rest ∧ s'.workers w = .posting rest := by
  have hother : ∀ w' v, w' ≠ w → Function.update s.workers w' v w = s.workers w :=
    fun w' v hne => Function.update_of_ne (Ne.symm hne) v s.workers
  unfold Step at h
  cases a with
  | call call =>
    simp only [step] at h
    split at h
    · cases h
    · cases h
      exact .inl rfl
  | start tx =>
    simp only [step] at h
    split at h
    · cases h
    · split at h
      · cases h
        exact .inl rfl
      · cases h
        exact .inl rfl
  | lookupOwner source =>
    simp only [step] at h
    split at h
    · split at h
      · cases h
        exact .inl rfl
      · cases h
        exact .inl rfl
    · cases h
  | lookupInventory source =>
    simp only [step] at h
    split at h
    · cases h
      exact .inl rfl
    · cases h
  | commit source =>
    simp only [step] at h
    split at h
    · cases h
      exact .inl rfl
    · cases h
  | rollback source =>
    cases h
    exact .inl rfl
  | list w' source =>
    simp only [step] at h
    split at h
    · cases h
      by_cases hw : w' = w
      · subst hw
        exact .inr (.inr (.inl ⟨source, rfl, Function.update_self ..⟩))
      · exact .inl (hother _ _ hw)
    · cases h
  | post w' status =>
    simp only [step] at h
    split at h
    · rename_i alert rest hposting
      cases h
      by_cases hw : w' = w
      · subst hw
        by_cases hstatus : status = 202
        · subst hstatus
          exact .inr (.inr (.inr (.inl ⟨alert, rest, rfl, rfl, hposting, Function.update_self ..⟩)))
        · refine .inr (.inl ?_)
          rw [if_neg hstatus]
          exact Function.update_self ..
      · exact .inl (hother _ _ hw)
    · cases h
  | mark w' now =>
    simp only [step] at h
    split at h
    · rename_i alert rest haccepted
      cases h
      by_cases hw : w' = w
      · subst hw
        exact .inr (.inr (.inr (.inr ⟨alert, rest, haccepted, Function.update_self ..⟩)))
      · exact .inl (hother _ _ hw)
    · cases h
  | crash w' =>
    cases h
    by_cases hw : w' = w
    · subst hw
      exact .inr (.inl (Function.update_self ..))
    · exact .inl (hother _ _ hw)

/-! ## Open transactions -/

/-- An open transaction is at the next position of its source, and the owner it has found is the
owner. -/
structure TxsInv (s : Monitor) : Prop where
  next : ∀ {source tx stage}, s.txs source = some (tx, stage) →
    tx.source = source ∧ tx.entry.position = ctPosition s.db source + 1 ∧ tx.entry.position < 2 ^ 63
  owner : ∀ {source tx id}, s.txs source = some (tx, .owned id) →
    ownerOf s.db tx.entry.hostname = some id

/-- A step that leaves the open transaction of a source leaves its position. -/
theorem ctPosition_step (h : Step sha256 s a s') (hinv : TxsInv s) {source : String}
    {tx : ObserveTx × Stage} (hopen : s'.txs source = some tx) :
    ctPosition s'.db source = ctPosition s.db source := by
  rcases step_db h with heq | ⟨call, -, hstaged, heq⟩ | ⟨source', tx', owner, expected, -, htx, hclosed,
    hrec⟩ | ⟨w, now, alert, rest, -, -, heq⟩
  · rw [heq]
  · rw [heq]
    exact (call_keeps sha256 call s.db hstaged).1 source
  · -- the commit closes the transaction of its own source
    have hne : tx'.source ≠ source := by
      rw [(hinv.next htx).1]
      rintro rfl
      rw [hclosed] at hopen
      cases hopen
    rw [ctPosition, (recordVerdict_ok hrec).checkpoint, if_neg hne]
    rfl
  · rw [heq, ctPosition, (markCtAlertDelivered_keeps s.db now alert.id).2.1]
    rfl

theorem ownerOf_step (h : Step sha256 s a s') {hostname : String} {id : Uuid}
    (howner : ownerOf s.db hostname = some id) : ownerOf s'.db hostname = some id := by
  rcases step_db h with heq | ⟨call, -, -, heq⟩ | ⟨source', tx', owner, expected, -, -, -, hrec⟩ |
    ⟨w, now, alert, rest, -, -, heq⟩
  · rw [heq]
    exact howner
  · rw [heq]
    exact ownerOf_call sha256 call howner
  · rw [ownerOf_congr (recordVerdict_ok hrec).installations]
    exact howner
  · rw [heq, ownerOf_congr (markCtAlertDelivered_keeps s.db now alert.id).2.2.2]
    exact howner

theorem txsInv_step (hinv : TxsInv s) (h : Step sha256 s a s') : TxsInv s' := by
  refine ⟨fun {source tx stage} hopen => ?_, fun {source tx id} hopen => ?_⟩
  · rw [ctPosition_step h hinv hopen]
    rcases step_txs h source with hsame | hnone | ⟨tx', -, hsource, hstart, -, htx⟩ |
      ⟨tx', -, hold, -, htx⟩ | ⟨tx', id, -, hold, -, htx⟩
    · rw [hsame] at hopen
      exact hinv.next hopen
    · rw [hnone] at hopen
      cases hopen
    · rw [htx] at hopen
      cases hopen
      exact ⟨hsource, observeStart_next hstart⟩
    · rw [htx] at hopen
      cases hopen
      exact hinv.next hold
    · rw [htx] at hopen
      cases hopen
      exact hinv.next hold
  · rcases step_txs h source with hsame | hnone | ⟨tx', -, hsource, hstart, -, htx⟩ |
      ⟨tx', -, hold, hdb, htx⟩ | ⟨tx', id', -, hold, -, htx⟩
    · rw [hsame] at hopen
      exact ownerOf_step h (hinv.owner hopen)
    · rw [hnone] at hopen
      cases hopen
    · rw [htx] at hopen
      cases hopen
    · rw [htx] at hopen
      rw [hdb]
      cases howner : ownerOf s.db tx'.entry.hostname with
      | none =>
        rw [howner] at hopen
        cases hopen
      | some id' =>
        rw [howner] at hopen
        cases hopen
        exact howner
    · rw [htx] at hopen
      cases hopen

theorem consistent_step (hinv : TxsInv s) (hdb : Consistent s.db) (h : Step sha256 s a s') :
    Consistent s'.db := by
  rcases step_db h with heq | ⟨call, -, hstaged, heq⟩ | ⟨source, tx, owner, expected, -, htx, -, hrec⟩ |
    ⟨w, now, alert, rest, -, -, heq⟩
  · rw [heq]
    exact hdb
  · rw [heq]
    obtain ⟨hpositions, hobs, halerts⟩ := call_keeps sha256 call s.db hstaged
    exact hdb.keep hpositions hobs halerts
  · obtain ⟨hsource, hnext, hlt⟩ := hinv.next htx
    rw [← hsource] at hnext
    exact hdb.record hnext hlt (recordVerdict_ok hrec)
  · rw [heq]
    exact hdb.deliver now alert.id

theorem state_run (h : Runs sha256 tr s) : TxsInv s ∧ Consistent s.db := by
  refine h.state_invariant (fun s => TxsInv s ∧ Consistent s.db) ⟨⟨?_, ?_⟩, consistent_migrated⟩ ?_
  · intro source tx stage hopen
    cases hopen
  · intro source tx id hopen
    cases hopen
  · intro s a s' ⟨hinv, hdb⟩ hstep
    exact ⟨txsInv_step hinv hstep, consistent_step hinv hdb hstep⟩

/-! ## Verdicts -/

/-- The step that settled the verdict of a transaction: the lookup in the inventory of the owner, or
the lookup of the owner if there is none. -/
structure DecidedAt (tx : ObserveTx) (owner : Option Uuid) (expected : Bool)
    (e : Event Monitor MonitorAction) : Prop where
  lookup : e.label = .lookupInventory tx.source ∨
    e.label = .lookupOwner tx.source ∧ ownerOf e.src.db tx.entry.hostname = none
  owner_eq : owner = ownerOf e.src.db tx.entry.hostname
  expected_iff : expected = true ↔ ∃ id, ownerOf e.src.db tx.entry.hostname = some id ∧
    (e.src.db.certificateInventory.find? (id, tx.entry.keyFingerprint)).isSome = true

/-- The transaction has been open with its verdict since the step that settled it. -/
def Decided (tx : ObserveTx) (owner : Option Uuid) (expected : Bool)
    (tr : List (Event Monitor MonitorAction)) : Prop :=
  Since (fun e _ => DecidedAt tx owner expected e)
    (fun e => e.dst.txs tx.source = some (tx, .decided owner expected)) tr

theorem decided_step {owner : Option Uuid} {expected : Bool} {source : String} {tx : ObserveTx}
    (hinv : TxsInv s)
    (hold : ∀ {source tx owner expected}, s.txs source = some (tx, .decided owner expected) →
      Decided tx owner expected tr)
    (h : Step sha256 s a s') (hopen : s'.txs source = some (tx, .decided owner expected)) :
    Decided tx owner expected (⟨s, a, s'⟩ :: tr) := by
  rcases step_txs h source with hsame | hnone | ⟨tx', -, -, -, -, htx⟩ | ⟨tx', rfl, hlocked, -, htx⟩ |
    ⟨tx', id, rfl, howned, -, htx⟩
  · have hwas := hopen
    rw [hsame] at hwas
    refine (hold hwas).cons ?_
    rw [(hinv.next hwas).1]
    exact hopen
  · rw [hnone] at hopen
    cases hopen
  · rw [htx] at hopen
    cases hopen
  · rw [htx] at hopen
    obtain ⟨hsource, -⟩ := hinv.next hlocked
    cases howner : ownerOf s.db tx'.entry.hostname with
    | none =>
      rw [howner] at hopen
      cases hopen
      refine Since.now ⟨.inr ⟨by rw [hsource], howner⟩, howner.symm, ?_⟩
      constructor
      · intro hfalse
        cases hfalse
      · rintro ⟨id, hid, -⟩
        rw [howner] at hid
        cases hid
    | some id =>
      rw [howner] at hopen
      cases hopen
  · rw [htx] at hopen
    obtain ⟨hsource, -⟩ := hinv.next howned
    have howner := hinv.owner howned
    cases hopen
    refine Since.now ⟨.inl (by rw [hsource]), howner.symm, ?_⟩
    constructor
    · intro hsome
      exact ⟨id, howner, hsome⟩
    · rintro ⟨id', hid', hsome⟩
      rw [howner] at hid'
      cases hid'
      exact hsome

theorem decided_run (h : Runs sha256 tr s) {source : String} {tx : ObserveTx} {owner : Option Uuid}
    {expected : Bool} (hopen : s.txs source = some (tx, .decided owner expected)) :
    Decided tx owner expected tr := by
  induction h generalizing source tx owner expected with
  | refl => cases hopen
  | snoc hrun hstep ih => exact decided_step (state_run hrun).1 ih hstep hopen

/-- The transaction that recorded an observation: its commit wrote the row, with the verdict of its
lookup. -/
def RecordedBy (tr : List (Event Monitor MonitorAction)) (o : CtObservation) : Prop :=
  ∃ tx : ObserveTx, o = observationOf tx.now tx.source tx.entry o.installationId o.expected ∧
    Happened (fun c earlier => c.label = .commit tx.source ∧
      c.src.db.ctObservations.find? o.key = none ∧ c.dst.db.ctObservations.find? o.key = some o ∧
      Decided tx o.installationId o.expected earlier) tr

theorem recorded_step (hrun : Runs sha256 tr s) (hold : ∀ o ∈ s.db.ctObservations.rows, RecordedBy tr o)
    (h : Step sha256 s a s') : ∀ o ∈ s'.db.ctObservations.rows, RecordedBy (⟨s, a, s'⟩ :: tr) o := by
  intro o ho
  have hbefore : o ∈ s.db.ctObservations.rows → RecordedBy (⟨s, a, s'⟩ :: tr) o := by
    intro hmem
    obtain ⟨tx, heq, hcommit⟩ := hold o hmem
    exact ⟨tx, heq, hcommit.cons⟩
  rcases step_db h with heq | ⟨call, -, hstaged, heq⟩ | ⟨source, tx, owner, expected, rfl, htx, -, hrec⟩ |
    ⟨w, now, alert, rest, -, -, heq⟩
  · rw [heq] at ho
    exact hbefore ho
  · rw [heq, (call_keeps sha256 call s.db hstaged).2.1] at ho
    exact hbefore ho
  · have hins := (recordVerdict_ok hrec).observation
    obtain ⟨hfree, hrows⟩ := (Table.insert?_eq_some_iff _).mp hins
    rw [hrows] at ho
    rcases List.mem_append.mp ho with ho | ho
    · exact hbefore ho
    · obtain rfl := List.mem_singleton.mp ho
      obtain ⟨hsource, -⟩ := (state_run hrun).1.next htx
      refine ⟨tx, rfl, Happened.now ⟨by rw [hsource], hfree, Table.find?_insert?_self hins, ?_⟩⟩
      exact decided_run hrun htx
  · rw [heq, (markCtAlertDelivered_keeps s.db now alert.id).1] at ho
    exact hbefore ho

theorem recorded_run (h : Runs sha256 tr s) : ∀ o ∈ s.db.ctObservations.rows, RecordedBy tr o := by
  induction h with
  | refl =>
    intro o ho
    exact absurd ho List.not_mem_nil
  | snoc hrun hstep ih => exact recorded_step hrun ih hstep

/-! ## Delivery -/

/-- An alert apart from its delivery mark. -/
def undelivered (a : CtAlert) : CtAlert := { a with deliveredAt := none }

theorem undelivered_delivered (now : Time) (id : Nat) (a : CtAlert) :
    undelivered (delivered now id a) = undelivered a := by
  unfold delivered
  split
  · rfl
  · rfl

/-- The alerts a worker still has to post or to mark. -/
def listed : Delivery → List CtAlert
  | .idle => []
  | .posting alerts => alerts
  | .accepted alert rest => alert :: rest

/-- The sink has answered 202 for the alert. -/
def Posted (tr : List (Event Monitor MonitorAction)) (alert : CtAlert) : Prop :=
  ∃ e ∈ tr, ∃ w posted rest, e.label = .post w 202 ∧ e.src.workers w = .posting (posted :: rest) ∧
    undelivered posted = undelivered alert

theorem Posted.cons {alert : CtAlert} (h : Posted tr alert) (e : Event Monitor MonitorAction) :
    Posted (e :: tr) alert := by
  obtain ⟨e', he', hpost⟩ := h
  exact ⟨e', List.mem_cons_of_mem _ he', hpost⟩

/-- Alerts stay in the table, whatever happens to their mark. -/
theorem alert_stays (h : Step sha256 s a s') {r : CtAlert} (hr : r ∈ s.db.ctAlerts.rows) :
    ∃ r' ∈ s'.db.ctAlerts.rows, undelivered r' = undelivered r := by
  rcases step_db h with heq | ⟨call, -, hstaged, heq⟩ | ⟨source, tx, owner, expected, -, -, -, hrec⟩ |
    ⟨w, now, alert, rest, -, -, heq⟩
  · exact ⟨r, by rw [heq]; exact hr, rfl⟩
  · refine ⟨r, ?_, rfl⟩
    rw [heq, (call_keeps sha256 call s.db hstaged).2.2]
    exact hr
  · refine ⟨r, ?_, rfl⟩
    have halert := (recordVerdict_ok hrec).alert
    cases expected with
    | true =>
      have hsame : s'.db.ctAlerts = s.db.ctAlerts := halert
      rw [hsame]
      exact hr
    | false =>
      rw [((Table.insert?_eq_some_iff _).mp halert).2]
      exact List.mem_append_left _ hr
  · refine ⟨delivered now alert.id r, ?_, undelivered_delivered now alert.id r⟩
    rw [heq, rows_markCtAlertDelivered]
    exact List.mem_map_of_mem hr

/-- What a worker has read is in the table. -/
theorem listed_run (h : Runs sha256 tr s) {w : Nat} {alert : CtAlert}
    (hlisted : alert ∈ listed (s.workers w)) :
    ∃ r ∈ s.db.ctAlerts.rows, undelivered r = undelivered alert := by
  induction h generalizing w alert with
  | refl => exact absurd hlisted List.not_mem_nil
  | snoc hrun hstep ih =>
    rename_i tr s s' a
    have hstays : ∀ {x}, x ∈ listed (s.workers w) →
        ∃ r ∈ s'.db.ctAlerts.rows, undelivered r = undelivered x := by
      intro x hx
      obtain ⟨r, hr, hrx⟩ := ih hx
      obtain ⟨r', hr', hrr'⟩ := alert_stays hstep hr
      exact ⟨r', hr', hrr'.trans hrx⟩
    rcases step_workers hstep w with hsame | hidle | ⟨source, hdb, hw⟩ | ⟨posted, rest, -, -, hold, hw⟩ |
      ⟨marked, rest, hold, hw⟩
    · rw [hsame] at hlisted
      exact hstays hlisted
    · rw [hidle] at hlisted
      exact absurd hlisted List.not_mem_nil
    · rw [hw] at hlisted
      rw [hdb]
      exact ⟨alert, (List.mem_filter.mp (List.mem_of_mem_take hlisted)).1, rfl⟩
    · rw [hw] at hlisted
      refine hstays ?_
      rw [hold]
      exact hlisted
    · rw [hw] at hlisted
      refine hstays ?_
      rw [hold]
      exact List.mem_cons_of_mem _ hlisted

theorem accepted_run (h : Runs sha256 tr s) {w : Nat} {alert : CtAlert} {rest : List CtAlert}
    (haccepted : s.workers w = .accepted alert rest) : Posted tr alert := by
  induction h generalizing w alert rest with
  | refl => cases haccepted
  | snoc hrun hstep ih =>
    rename_i tr s s' a
    rcases step_workers hstep w with hsame | hidle | ⟨source, -, hw⟩ | ⟨posted, rest', rfl, -, hold, hw⟩ |
      ⟨marked, rest', -, hw⟩
    · rw [hsame] at haccepted
      exact (ih haccepted).cons _
    · rw [hidle] at haccepted
      cases haccepted
    · rw [hw] at haccepted
      cases haccepted
    · rw [hw] at haccepted
      cases haccepted
      exact ⟨_, List.mem_cons_self, w, alert, rest, rfl, hold, rfl⟩
    · rw [hw] at haccepted
      cases haccepted

theorem posted_run (h : Runs sha256 tr s) {r : CtAlert} (hr : r ∈ s.db.ctAlerts.rows)
    (hdelivered : r.deliveredAt ≠ none) : Posted tr r := by
  induction h generalizing r with
  | refl => exact absurd hr List.not_mem_nil
  | snoc hrun hstep ih =>
    rename_i tr s s' a
    rcases step_db hstep with heq | ⟨call, -, hstaged, heq⟩ |
      ⟨source, tx, owner, expected, -, -, -, hrec⟩ | ⟨w, now, alert, rest, -, hw, heq⟩
    · rw [heq] at hr
      exact (ih hr hdelivered).cons _
    · rw [heq, (call_keeps sha256 call s.db hstaged).2.2] at hr
      exact (ih hr hdelivered).cons _
    · have halert := (recordVerdict_ok hrec).alert
      cases expected with
      | true =>
        have hsame : s'.db.ctAlerts = s.db.ctAlerts := halert
        rw [hsame] at hr
        exact (ih hr hdelivered).cons _
      | false =>
        rw [((Table.insert?_eq_some_iff _).mp halert).2] at hr
        rcases List.mem_append.mp hr with hr | hr
        · exact (ih hr hdelivered).cons _
        · obtain rfl := List.mem_singleton.mp hr
          exact absurd rfl hdelivered
    · rw [heq, rows_markCtAlertDelivered] at hr
      obtain ⟨r₀, hr₀, rfl⟩ := List.mem_map.mp hr
      by_cases hmark : r₀.id = alert.id ∧ r₀.deliveredAt = none
      · -- the marked row is the alert the sink has accepted, since no two share a number
        have hlisted : alert ∈ listed (s.workers w) := by
          rw [hw]
          exact List.mem_cons_self
        obtain ⟨r₁, hr₁, hsame⟩ := listed_run hrun hlisted
        have hid : r₀.id = r₁.id := hmark.1.trans (congrArg CtAlert.id hsame).symm
        obtain rfl := (state_run hrun).2.id_inj hr₀ hr₁ hid
        obtain ⟨e, he, w', posted, rest', hlabel, hposting, hposted⟩ := accepted_run hrun hw
        refine ⟨e, List.mem_cons_of_mem _ he, w', posted, rest', hlabel, hposting, ?_⟩
        rw [undelivered_delivered, hsame]
        exact hposted
      · rw [delivered_of_none now hmark] at hdelivered ⊢
        exact (ih hr₀ hdelivered).cons _

/-! ## Repeated entries -/

/-- A call that ends with its lock has changed nothing. -/
theorem start_unchanged {tx : ObserveTx} (hfree : s.txs tx.source = none)
    (h : observeStart s.db tx.source tx.entry ≠ .ok none) : Step sha256 s (.start tx) s := by
  show s.step sha256 (.start tx) = some s
  simp only [step, hfree]

theorem start_refused {tx : ObserveTx} {e : StoreError} (hfree : s.txs tx.source = none)
    (h : observeStart s.db tx.source tx.entry = .error e) : Step sha256 s (.start tx) s := by
  refine start_unchanged hfree fun hnone => ?_
  rw [h] at hnone
  cases hnone

/-! ## The monitor -/

/-- What the monitor owes for every source in a state reached by a run. -/
structure NothingLost (sha256 : Bytes → Bytes32) (tr : List (Event Monitor MonitorAction))
    (s : Monitor) : Prop where
  /-- The observations stand at the positions from 1 to the checkpoint, with no gap. -/
  contiguous : ∀ source p,
    s.db.ctObservations.find? (source, p) ≠ none ↔ 0 < p ∧ p ≤ ctPosition s.db source
  /-- There is an alert exactly where an observation is stored as unexpected. -/
  alerted : ∀ key, s.db.ctAlerts.find? key ≠ none ↔
    ∃ o, s.db.ctObservations.find? key = some o ∧ o.expected = false
  /-- It has the content of the observation. -/
  content : ∀ key alert o, s.db.ctAlerts.find? key = some alert →
    s.db.ctObservations.find? key = some o → alertIssuance alert = observationIssuance o
  /-- It is the only one there. -/
  unique : ∀ x ∈ s.db.ctAlerts.rows, ∀ y ∈ s.db.ctAlerts.rows, x.key = y.key → x = y
  /-- Every stored verdict is that of the lookup of the transaction that recorded it. -/
  verdict : ∀ o ∈ s.db.ctObservations.rows, RecordedBy tr o
  /-- A recorded position answers the stored verdict, or a conflict if the data differ. -/
  repeated : ∀ (tx : ObserveTx) (o : CtObservation), s.txs tx.source = none →
    ValidEntry tx.source tx.entry → s.db.ctObservations.find? (tx.source, tx.entry.position) = some o →
    observeStart s.db tx.source tx.entry =
        (if o.hostname = tx.entry.hostname ∧ o.fingerprint = tx.entry.keyFingerprint then
          .ok (some o.expected) else .error .conflict) ∧
      Step sha256 s (.start tx) s
  /-- A position beyond the next one is a conflict. -/
  gap : ∀ tx : ObserveTx, s.txs tx.source = none → ValidEntry tx.source tx.entry →
    ctPosition s.db tx.source + 1 < tx.entry.position →
    observeStart s.db tx.source tx.entry = .error .conflict ∧ Step sha256 s (.start tx) s
  /-- An entry that is not valid is an invalid request, whatever its position. -/
  invalid : ∀ tx : ObserveTx, s.txs tx.source = none → ¬ ValidEntry tx.source tx.entry →
    observeStart s.db tx.source tx.entry = .error .invalidRequest ∧ Step sha256 s (.start tx) s
  /-- An alert that is no longer pending has been accepted by the sink. -/
  pending : ∀ alert ∈ s.db.ctAlerts.rows, alert.deliveredAt ≠ none → Posted tr alert

theorem alerted_of_consistent {db : Db} (h : Consistent db) (key : String × Nat) :
    db.ctAlerts.find? key ≠ none ↔ ∃ o, db.ctObservations.find? key = some o ∧ o.expected = false := by
  have halerted := h.alerted key
  constructor
  · intro hne
    obtain ⟨alert, halert⟩ := Option.ne_none_iff_exists'.mp hne
    rw [halert] at halerted
    obtain ⟨o, ho, -⟩ := Option.map_eq_some_iff.mp halerted.symm
    obtain ⟨ho, hexpected⟩ := Option.filter_eq_some_iff.mp ho
    exact ⟨o, ho, by simpa using hexpected⟩
  · rintro ⟨o, ho, hexpected⟩ hnone
    rw [hnone, ho] at halerted
    simp [Option.filter, hexpected] at halerted

theorem content_of_consistent {db : Db} (h : Consistent db) {key : String × Nat} {alert : CtAlert}
    {o : CtObservation} (halert : db.ctAlerts.find? key = some alert)
    (ho : db.ctObservations.find? key = some o) : alertIssuance alert = observationIssuance o := by
  have halerted := h.alerted key
  rw [halert] at halerted
  obtain ⟨o', ho', hsame⟩ := Option.map_eq_some_iff.mp halerted.symm
  obtain ⟨ho', -⟩ := Option.filter_eq_some_iff.mp ho'
  rw [ho] at ho'
  cases ho'
  exact hsame.symm

/-- In every interleaving no unexpected issuance is lost. -/
theorem nothing_lost (sha256 : Bytes → Bytes32) (tr : List (Event Monitor MonitorAction))
    (s : Monitor) (h : Runs sha256 tr s) : NothingLost sha256 tr s where
  contiguous := (state_run h).2.contiguous
  alerted := alerted_of_consistent (state_run h).2
  content _ _ _ halert ho := content_of_consistent (state_run h).2 halert ho
  unique _ hx _ hy hkey := s.db.ctAlerts.key_inj hx hy hkey
  verdict := recorded_run h
  repeated tx o hfree hvalid ho := by
    have hanswer := observeStart_recorded (state_run h).2 hvalid ho
    refine ⟨hanswer, start_unchanged hfree ?_⟩
    rw [hanswer]
    split
    · exact fun heq => nomatch heq
    · exact fun heq => nomatch heq
  gap tx hfree hvalid hgap := by
    have hanswer := observeStart_gap hvalid hgap
    exact ⟨hanswer, start_refused hfree hanswer⟩
  invalid tx hfree hinvalid := by
    have hanswer := @observeStart_invalid s.db _ _ hinvalid
    exact ⟨hanswer, start_refused hfree hanswer⟩
  pending _ hr hdelivered := posted_run h hr hdelivered

/-- An issuance nobody has reported, from its entry in the feed to the answer of the sink. -/
def unreported : List MonitorAction :=
  let tx : ObserveTx := ⟨10, "fixture", ⟨1, "abcdefghijklmnopqrstuvwxyz.relay.bloom.directory",
    "bbbbbbbbbbbbbbbbbbbbbbbbbbbbbbbbbbbbbbbbbbbbbbbbbbbbbbbbbbbbbbbb"⟩⟩
  [.start tx, .lookupOwner "fixture", .commit "fixture", .list 0 "fixture", .post 0 202, .mark 0 40]

theorem nothing_lost_unreported : ∃ tr s, Runs (fun _ => 0) tr s ∧ NothingLost (fun _ => 0) tr s ∧
    s.db.ctAlerts.rows.map (fun alert => (alert.position, alert.deliveredAt)) = [(1, some 40)] := by
  have hplay : (Run.play (step fun _ => 0) start unreported).map (fun s =>
      s.db.ctAlerts.rows.map (fun alert => (alert.position, alert.deliveredAt))) =
        some [(1, some 40)] := by
    decide +kernel
  obtain ⟨s, hs, hrows⟩ := Option.map_eq_some_iff.mp hplay
  obtain ⟨tr, hrun, -⟩ := Run.of_play hs
  exact ⟨tr, s, hrun, nothing_lost (fun _ => 0) tr s hrun, hrows⟩

end Monitor

end BloomRelay.Ct
