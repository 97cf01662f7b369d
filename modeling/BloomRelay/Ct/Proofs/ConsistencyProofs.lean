import BloomRelay.Ct.Monitor
import BloomRelay.Store.Proofs.EffectProofs

/-!
# The tables of the CT monitor agree

The checkpoint of a source counts its observations, and there is an alert exactly where an observation
is stored as unexpected, with the same content (`Consistent`). The one write that moves any of this is
`recordVerdict`; the others touch the health of a feed, the delivery marks or the inventory.
-/

namespace BloomRelay.Ct

open Protocol Store Checked

variable {db db' : Db} {now : Time} {source : String} {entry : CtEntry} {owner : Option Uuid}
  {expected : Bool}

/-! ## The checkpoint row -/

theorem ensureCheckpoint_keeps (db : Db) (now : Time) (source : String) :
    (db.ensureCheckpoint now source).ctObservations = db.ctObservations ∧
      (db.ensureCheckpoint now source).ctAlerts = db.ctAlerts ∧
      (db.ensureCheckpoint now source).certificateInventory = db.certificateInventory ∧
      (db.ensureCheckpoint now source).installations = db.installations ∧
      (db.ensureCheckpoint now source).ctHealthAlerts = db.ctHealthAlerts := by
  obtain h | ⟨t, h⟩ := ensureCheckpoint_cases db now source
  · rw [h]
    exact ⟨rfl, rfl, rfl, rfl, rfl⟩
  · rw [h]
    exact ⟨rfl, rfl, rfl, rfl, rfl⟩

theorem find_ensureCheckpoint (db : Db) (now : Time) (source source' : String) :
    (db.ensureCheckpoint now source).ctFeedCheckpoints.find? source' =
      (db.ctFeedCheckpoints.find? source').or
        (if source = source' then some ⟨source, 0, now⟩ else none) := by
  unfold Db.ensureCheckpoint
  cases hins : db.ctFeedCheckpoints.insert? ⟨source, 0, now⟩ with
  | none =>
    have hthere : db.ctFeedCheckpoints.find? source ≠ none :=
      (db.ctFeedCheckpoints.insert?_eq_none_iff).mp hins
    by_cases heq : source = source'
    · subst heq
      obtain ⟨c, hc⟩ := Option.ne_none_iff_exists'.mp hthere
      rw [hc]
      rfl
    · rw [if_neg heq, Option.or_none]
  | some t => exact Table.find?_of_rows_append (Table.insert?_eq_some_iff _ |>.mp hins).2 source'

/-- The inserted checkpoint stands where a missing one is taken to stand. -/
theorem ctPosition_ensureCheckpoint (db : Db) (now : Time) (source source' : String) :
    ctPosition (db.ensureCheckpoint now source) source' = ctPosition db source' := by
  unfold ctPosition
  rw [find_ensureCheckpoint]
  cases db.ctFeedCheckpoints.find? source' with
  | some c => rfl
  | none =>
    by_cases heq : source = source'
    · rw [if_pos heq]
      rfl
    · rw [if_neg heq]
      rfl

/-! ## What `observe_ct` writes -/

/-- The observation a transaction records. -/
def observationOf (now : Time) (source : String) (entry : CtEntry) (owner : Option Uuid)
    (expected : Bool) : CtObservation :=
  ⟨source, entry.position, owner, entry.hostname, entry.keyFingerprint, now, expected⟩

/-- The alert of an unexpected one. -/
def alertOf (db : Db) (now : Time) (source : String) (entry : CtEntry) (owner : Option Uuid) :
    CtAlert :=
  ⟨db.ctAlerts.rows.length + 1, source, entry.position, owner, entry.hostname, entry.keyFingerprint,
    now, none⟩

/-- The effect of `recordVerdict` on the tables of the monitor. -/
structure Records (db : Db) (now : Time) (source : String) (entry : CtEntry) (owner : Option Uuid)
    (expected : Bool) (db' : Db) : Prop where
  observation : db.ctObservations.insert? (observationOf now source entry owner expected) =
    some db'.ctObservations
  alert : if expected then db'.ctAlerts = db.ctAlerts else
    db.ctAlerts.insert? (alertOf db now source entry owner) = some db'.ctAlerts
  checkpoint : ∀ source', db'.ctFeedCheckpoints.find? source' =
    if source = source' then some ⟨source, entry.position, now⟩
    else db.ctFeedCheckpoints.find? source'
  inventory : db'.certificateInventory = db.certificateInventory
  installations : db'.installations = db.installations
  healthAlerts : db'.ctHealthAlerts = db.ctHealthAlerts

theorem raiseAlertFor_ok (h : raiseAlertFor db now source entry owner = .ok db') :
    db.ctAlerts.insert? (alertOf db now source entry owner) = some db'.ctAlerts ∧
      db'.ctObservations = db.ctObservations ∧ db'.ctFeedCheckpoints = db.ctFeedCheckpoints ∧
      db'.certificateInventory = db.certificateInventory ∧ db'.installations = db.installations ∧
      db'.ctHealthAlerts = db.ctHealthAlerts := by
  simp only [raiseAlertFor, bind_eq_ok] at h
  obtain ⟨db₁, hins, h⟩ := h
  obtain ⟨t, ht, rfl⟩ := insertAlert_ok hins
  cases owner with
  | none =>
    cases h
    exact ⟨ht, rfl, rfl, rfl, rfl, rfl⟩
  | some id =>
    cases h
    exact ⟨ht, rfl, rfl, rfl, rfl, rfl⟩

theorem find_modifyCheckpoint {c : CtFeedCheckpoint} (f : CtFeedCheckpoint → CtFeedCheckpoint)
    (hf : ∀ c, (f c).source = c.source) (h : db.ctFeedCheckpoints.find? source = some c)
    (source' : String) :
    (db.modifyCheckpoint source f hf).ctFeedCheckpoints.find? source' =
      if source = source' then some (f c) else db.ctFeedCheckpoints.find? source' := by
  by_cases heq : source = source'
  · subst heq
    rw [if_pos rfl]
    refine (Table.find?_modify_self _ _ _ hf).trans ?_
    rw [h]
    rfl
  · rw [if_neg heq]
    exact Table.find?_modify_ne _ _ hf (Ne.symm heq)

/-- An update of other columns leaves the positions. -/
theorem ctPosition_modifyCheckpoint (source : String) (f : CtFeedCheckpoint → CtFeedCheckpoint)
    (hf : ∀ c, (f c).source = c.source) (hposition : ∀ c, (f c).position = c.position)
    (source' : String) :
    ctPosition (db.modifyCheckpoint source f hf) source' = ctPosition db source' := by
  unfold ctPosition
  cases hc : db.ctFeedCheckpoints.find? source with
  | some c =>
    rw [find_modifyCheckpoint f hf hc]
    by_cases heq : source = source'
    · subst heq
      rw [if_pos rfl, hc]
      exact hposition c
    · rw [if_neg heq]
  | none =>
    have hnone : db.ctFeedCheckpoints.modify source f hf = db.ctFeedCheckpoints := by
      refine Table.modify_eq_self _ hf fun c hc' => ?_
      rw [hc] at hc'
      cases hc'
    have hfind : (db.modifyCheckpoint source f hf).ctFeedCheckpoints.find? source' =
      db.ctFeedCheckpoints.find? source' := congrArg (·.find? source') hnone
    rw [hfind]

theorem find_ensureCheckpoint_self (db : Db) (now : Time) (source : String) :
    ∃ c, (db.ensureCheckpoint now source).ctFeedCheckpoints.find? source = some c ∧
      c.source = source := by
  have hsome : ∃ c, (db.ensureCheckpoint now source).ctFeedCheckpoints.find? source = some c := by
    rw [find_ensureCheckpoint, if_pos rfl]
    cases db.ctFeedCheckpoints.find? source with
    | none => exact ⟨_, rfl⟩
    | some c => exact ⟨c, rfl⟩
  obtain ⟨c, hc⟩ := hsome
  exact ⟨c, hc, Table.find?_key _ hc⟩

theorem recordVerdict_ok (h : recordVerdict db now source entry owner expected = .ok db') :
    Records db now source entry owner expected db' := by
  simp only [recordVerdict, bind_eq_ok, Except.ok.injEq] at h
  obtain ⟨db₁, hins, db₂, halert, rfl⟩ := h
  obtain ⟨hobs, halerts, hinv, hinst, hhealth⟩ := ensureCheckpoint_keeps db now source
  obtain ⟨c, hc, hsource⟩ := find_ensureCheckpoint_self db now source
  obtain ⟨t, ht, rfl⟩ := insertObservation_ok hins
  rw [hobs] at ht
  -- the checkpoint is written last, over whatever the alert has left of it
  have hchecked : ∀ db₃ : Db,
      db₃.ctFeedCheckpoints = (db.ensureCheckpoint now source).ctFeedCheckpoints → ∀ source',
        (db₃.modifyCheckpoint source (fun c => { c with position := entry.position, observedAt := now })
          (fun _ => rfl)).ctFeedCheckpoints.find? source' =
          if source = source' then some ⟨source, entry.position, now⟩
          else db.ctFeedCheckpoints.find? source' := by
    intro db₃ hsame source'
    have hc₃ : db₃.ctFeedCheckpoints.find? source = some c := hsame ▸ hc
    rw [find_modifyCheckpoint _ _ hc₃]
    by_cases heq : source = source'
    · rw [if_pos heq, if_pos heq, hsource]
    · rw [if_neg heq, if_neg heq, hsame, find_ensureCheckpoint, if_neg heq, Option.or_none]
  cases expected with
  | true =>
    rw [if_pos rfl] at halert
    cases halert
    exact ⟨ht, halerts, hchecked _ rfl, hinv, hinst, hhealth⟩
  | false =>
    rw [if_neg Bool.false_ne_true] at halert
    obtain ⟨hinsert, hobs₂, hcheck₂, hinv₂, hinst₂, hhealth₂⟩ := raiseAlertFor_ok halert
    have hrow : alertOf { db.ensureCheckpoint now source with ctObservations := t } now source entry
        owner = alertOf db now source entry owner := by
      unfold alertOf
      rw [halerts]
    rw [hrow] at hinsert
    have hinsert' : (db.ensureCheckpoint now source).ctAlerts.insert?
      (alertOf db now source entry owner) = some db₂.ctAlerts := hinsert
    rw [halerts] at hinsert'
    exact ⟨ht.trans (congrArg some hobs₂.symm), hinsert', hchecked db₂ hcheck₂, hinv₂.trans hinv,
      hinst₂.trans hinst, hhealth₂.trans hhealth⟩

theorem raiseAlertFor_free (now : Time) (owner : Option Uuid)
    (halert : db.ctAlerts.find? (source, entry.position) = none) :
    ∃ db', raiseAlertFor db now source entry owner = .ok db' := by
  have hins : ∃ db₁, db.insertAlert (alertOf db now source entry owner) = .ok db₁ := by
    unfold Db.insertAlert
    cases hi : db.ctAlerts.insert? (alertOf db now source entry owner) with
    | none => exact absurd halert ((Table.insert?_eq_none_iff _).mp hi)
    | some t => exact ⟨_, rfl⟩
  obtain ⟨db₁, hdb₁⟩ := hins
  simp only [raiseAlertFor, bind_eq_ok]
  cases owner with
  | none => exact ⟨_, _, hdb₁, rfl⟩
  | some id => exact ⟨_, _, hdb₁, rfl⟩

/-- Nothing but a key that is taken keeps the verdict from being written. -/
theorem recordVerdict_free (now : Time) (owner : Option Uuid) (expected : Bool)
    (hobs : db.ctObservations.find? (source, entry.position) = none)
    (halert : db.ctAlerts.find? (source, entry.position) = none) :
    ∃ db', recordVerdict db now source entry owner expected = .ok db' := by
  obtain ⟨hobs', halerts', -⟩ := ensureCheckpoint_keeps db now source
  have hfirst : ∃ db₁, (db.ensureCheckpoint now source).insertObservation
      (observationOf now source entry owner expected) = .ok db₁ := by
    unfold Db.insertObservation
    rw [hobs']
    cases hi : db.ctObservations.insert? (observationOf now source entry owner expected) with
    | none => exact absurd hobs ((Table.insert?_eq_none_iff _).mp hi)
    | some t => exact ⟨_, rfl⟩
  obtain ⟨db₁, hdb₁⟩ := hfirst
  have hsame : db₁.ctAlerts = db.ctAlerts := by
    obtain ⟨t, -, rfl⟩ := insertObservation_ok hdb₁
    exact halerts'
  have hsecond : ∃ db₂, (if expected then .ok db₁ else raiseAlertFor db₁ now source entry owner) =
      (.ok db₂ : Except StoreError Db) := by
    cases expected with
    | true => exact ⟨db₁, rfl⟩
    | false => exact raiseAlertFor_free now owner (hsame ▸ halert)
  obtain ⟨db₂, hdb₂⟩ := hsecond
  simp only [recordVerdict, bind_eq_ok]
  exact ⟨_, _, hdb₁, _, hdb₂, rfl⟩

/-! ## `observe_ct` as a whole -/

theorem ownerOf_congr (h : db'.installations = db.installations) (hostname : String) :
    ownerOf db' hostname = ownerOf db hostname := by
  rw [ownerOf, h]
  rfl

theorem issuanceExpected_congr (hinst : db'.installations = db.installations)
    (hinv : db'.certificateInventory = db.certificateInventory) (hostname fingerprint : String) :
    issuanceExpected db' hostname fingerprint = issuanceExpected db hostname fingerprint := by
  rw [issuanceExpected, ownerOf_congr hinst, hinv]
  rfl

theorem issuanceExpected_iff {hostname fingerprint : String} :
    issuanceExpected db hostname fingerprint = true ↔
      ∃ id, ownerOf db hostname = some id ∧
        (db.certificateInventory.find? (id, fingerprint)).isSome = true := by
  unfold issuanceExpected
  cases ownerOf db hostname with
  | none => exact ⟨fun h => (nomatch h), fun ⟨id, h, _⟩ => (nomatch h)⟩
  | some id =>
    constructor
    · intro h
      exact ⟨id, rfl, h⟩
    · rintro ⟨id', hid, h⟩
      cases hid
      exact h

/-- The last statements of `observe_ct`, with the owner and the verdict looked up in one go. -/
theorem recordObservation_eq (db : Db) (now : Time) (source : String) (entry : CtEntry) :
    recordObservation (db.ensureCheckpoint now source) now source entry.position entry.hostname
        entry.keyFingerprint =
      (recordVerdict db now source entry (ownerOf db entry.hostname)
        (issuanceExpected db entry.hostname entry.keyFingerprint)).map
          (fun db' => (issuanceExpected db entry.hostname entry.keyFingerprint, db')) := by
  obtain ⟨-, -, hinv, hinst, -⟩ := ensureCheckpoint_keeps db now source
  unfold recordObservation recordVerdict
  rw [issuanceExpected_congr hinst hinv, ownerOf_congr hinst]
  generalize issuanceExpected db entry.hostname entry.keyFingerprint = expected
  dsimp only
  cases hins : (db.ensureCheckpoint now source).insertObservation ⟨source, entry.position,
      ownerOf db entry.hostname, entry.hostname, entry.keyFingerprint, now, expected⟩ with
  | error e => rfl
  | ok db₁ =>
    have howner : ownerOf db₁ entry.hostname = ownerOf db entry.hostname := by
      obtain ⟨t, -, rfl⟩ := insertObservation_ok hins
      exact ownerOf_congr hinst _
    have hraise : db₁.raiseAlert now source entry.position entry.hostname entry.keyFingerprint =
        raiseAlertFor db₁ now source entry (ownerOf db entry.hostname) := by
      rw [← howner]
      rfl
    cases expected with
    | true => rfl
    | false =>
      show ((db₁.raiseAlert now source entry.position entry.hostname entry.keyFingerprint) >>= _) =
        ((raiseAlertFor db₁ now source entry (ownerOf db entry.hostname)) >>= _).map _
      rw [hraise]
      cases raiseAlertFor db₁ now source entry (ownerOf db entry.hostname) with
      | error e => rfl
      | ok db₂ => rfl

/-- What `observe_ct` lets through is the next position. -/
theorem observeStart_next (h : observeStart db source entry = .ok none) :
    entry.position = ctPosition db source + 1 ∧ entry.position < 2 ^ 63 := by
  simp only [observeStart, bind_eq_ok, require_eq_ok] at h
  obtain ⟨-, -, -, -, -, -, -, ⟨-, hlt⟩, h⟩ := h
  split at h
  · simp only [bind_eq_ok] at h
    obtain ⟨previous, -, _, -, h⟩ := h
    cases h
  · simp only [bind_eq_ok, require_eq_ok] at h
    obtain ⟨-, hnext, -⟩ := h
    exact ⟨hnext, hlt⟩

/-- `observe_ct` without another transaction in between. -/
theorem observeCt_eq (db : Db) (now : Time) (source : String) (entry : CtEntry) :
    observeCt db now source entry.position entry.hostname entry.keyFingerprint =
      (observeStart db source entry >>= fun
        | some expected => .ok (expected, db)
        | none => (recordVerdict db now source entry (ownerOf db entry.hostname)
          (issuanceExpected db entry.hostname entry.keyFingerprint)).map
            (fun db' => (issuanceExpected db entry.hostname entry.keyFingerprint, db'))) := by
  obtain ⟨c, hc, -⟩ := find_ensureCheckpoint_self db now source
  have hposition : c.position = ctPosition db source := by
    rw [← ctPosition_ensureCheckpoint db now source source, ctPosition, hc]
    rfl
  obtain ⟨hobs, -⟩ := ensureCheckpoint_keeps db now source
  rw [← recordObservation_eq]
  simp only [observeCt, observeStart, bind_assoc, hc, hobs]
  refine congrArg _ (funext fun _ => congrArg _ (funext fun _ => congrArg _ (funext fun _ =>
    congrArg _ (funext fun _ => ?_))))
  show (if entry.position ≤ c.position then _ else _) = _
  rw [hposition]
  by_cases hle : entry.position ≤ ctPosition db source
  · rw [if_pos hle, if_pos hle, bind_assoc]
    refine congrArg _ (funext fun previous => ?_)
    rw [bind_assoc]
    rfl
  · rw [if_neg hle, if_neg hle, bind_assoc]
    rfl

/-! ## What `observe_ct` accepts -/

theorem validateFingerprint_error {fingerprint : String} (h : validateFingerprint fingerprint ≠ .ok ()) :
    validateFingerprint fingerprint = .error .invalidRequest := by
  rw [validateFingerprint, ne_eq, require_eq_ok] at h
  rw [validateFingerprint, require_eq_error]
  exact ⟨h, rfl⟩

theorem validateSource_error (h : validateSource source ≠ .ok ()) :
    validateSource source = .error .invalidRequest := by
  rw [validateSource, ne_eq, require_eq_ok] at h
  rw [validateSource, require_eq_error]
  exact ⟨h, rfl⟩

/-- The arguments `observe_ct` accepts. -/
structure ValidEntry (source : String) (entry : CtEntry) : Prop where
  hostname : validateHostname entry.hostname = .ok ()
  fingerprint : validateFingerprint entry.keyFingerprint = .ok ()
  source : validateSource source = .ok ()
  position : 0 < entry.position ∧ entry.position < 2 ^ 63

theorem observeStart_valid {db : Db} {source : String} {entry : CtEntry}
    (h : ValidEntry source entry) :
    observeStart db source entry =
      if entry.position ≤ ctPosition db source then (do
        let previous ← found (db.ctObservations.find? (source, entry.position)) .conflict
        require (previous.hostname = entry.hostname ∧ previous.fingerprint = entry.keyFingerprint)
          .conflict
        .ok (some previous.expected))
      else (do
        require (entry.position = ctPosition db source + 1) .conflict
        .ok none) := by
  have hhost : (require (validateHostname entry.hostname = .ok ()) .invalidRequest :
    Except StoreError Unit) = .ok () := require_eq_ok.mpr h.hostname
  have hposition : (require (0 < entry.position ∧ entry.position < 2 ^ 63) .invalidRequest :
    Except StoreError Unit) = .ok () := require_eq_ok.mpr h.position
  rw [observeStart, hhost, h.fingerprint, h.source, hposition]
  rfl

theorem observeStart_invalid (h : ¬ ValidEntry source entry) :
    observeStart db source entry = .error .invalidRequest := by
  unfold observeStart
  by_cases hhost : validateHostname entry.hostname = .ok ()
  · have hfirst : (require (validateHostname entry.hostname = .ok ()) .invalidRequest :
      Except StoreError Unit) = .ok () := require_eq_ok.mpr hhost
    by_cases hprint : validateFingerprint entry.keyFingerprint = .ok ()
    · by_cases hsource : validateSource source = .ok ()
      · have hposition : (require (0 < entry.position ∧ entry.position < 2 ^ 63) .invalidRequest :
            Except StoreError Unit) = .error .invalidRequest :=
          require_eq_error.mpr ⟨fun hposition => h ⟨hhost, hprint, hsource, hposition⟩, rfl⟩
        rw [hfirst, hprint, hsource, hposition]
        rfl
      · rw [hfirst, hprint, validateSource_error hsource]
        rfl
    · rw [hfirst, validateFingerprint_error hprint]
      rfl
  · have hfirst : (require (validateHostname entry.hostname = .ok ()) .invalidRequest :
      Except StoreError Unit) = .error .invalidRequest := require_eq_error.mpr ⟨hhost, rfl⟩
    rw [hfirst]
    rfl

/-! ## Consistency -/

/-- What an alert says about an issuance. -/
def alertIssuance (a : CtAlert) : Option Uuid × String × String :=
  (a.installationId, a.hostname, a.fingerprint)

def observationIssuance (o : CtObservation) : Option Uuid × String × String :=
  (o.installationId, o.hostname, o.fingerprint)

/-- The row of an alert after `mark_ct_alert_delivered` of alert `id`. -/
def delivered (now : Time) (id : Nat) (a : CtAlert) : CtAlert :=
  if a.id = id ∧ a.deliveredAt = none then { a with deliveredAt := some now } else a

theorem alertIssuance_delivered (now : Time) (id : Nat) (a : CtAlert) :
    alertIssuance (delivered now id a) = alertIssuance a := by
  unfold delivered
  split
  · rfl
  · rfl

theorem id_delivered (now : Time) (id : Nat) (a : CtAlert) : (delivered now id a).id = a.id := by
  unfold delivered
  split
  · rfl
  · rfl

theorem delivered_of_none {id : Nat} {a : CtAlert} (now : Time)
    (h : ¬ (a.id = id ∧ a.deliveredAt = none)) : delivered now id a = a := if_neg h

theorem markCtAlertDelivered_keeps (db : Db) (now : Time) (id : Nat) :
    (markCtAlertDelivered db now id).ctObservations = db.ctObservations ∧
      (markCtAlertDelivered db now id).ctFeedCheckpoints = db.ctFeedCheckpoints ∧
      (markCtAlertDelivered db now id).ctHealthAlerts = db.ctHealthAlerts ∧
      (markCtAlertDelivered db now id).installations = db.installations := by
  obtain h | ⟨t, h⟩ := markCtAlertDelivered_cases db now id
  · rw [h]
    exact ⟨rfl, rfl, rfl, rfl⟩
  · rw [h]
    exact ⟨rfl, rfl, rfl, rfl⟩

/-- The marked table as an update, which is none when no alert is left to mark. -/
theorem ctAlerts_markCtAlertDelivered (db : Db) (now : Time) (id : Nat) :
    (markCtAlertDelivered db now id).ctAlerts =
      db.ctAlerts.updateWhere (fun a => a.id = id ∧ a.deliveredAt = none)
        (fun a => { a with deliveredAt := some now }) (fun _ => rfl) := by
  unfold markCtAlertDelivered
  split
  · rfl
  · rename_i hnone
    exact (Table.updateWhere_eq_self _ _ _ (Bool.eq_false_iff.mpr hnone)).symm

theorem rows_markCtAlertDelivered (db : Db) (now : Time) (id : Nat) :
    (markCtAlertDelivered db now id).ctAlerts.rows = db.ctAlerts.rows.map (delivered now id) := by
  rw [ctAlerts_markCtAlertDelivered, Table.rows_updateWhere]
  refine List.map_congr_left fun a _ => ?_
  simp only [delivered, decide_eq_true_eq]

theorem find_markCtAlertDelivered (db : Db) (now : Time) (id : Nat) (key : String × Nat) :
    (markCtAlertDelivered db now id).ctAlerts.find? key =
      (db.ctAlerts.find? key).map (delivered now id) := by
  rw [ctAlerts_markCtAlertDelivered, Table.find?_updateWhere]
  refine congrArg (fun f => (db.ctAlerts.find? key).map f) (funext fun a => ?_)
  simp only [delivered, decide_eq_true_eq]

structure Consistent (db : Db) : Prop where
  /-- The observations of a source stand at the positions from 1 up to its checkpoint. -/
  contiguous : ∀ source p,
    db.ctObservations.find? (source, p) ≠ none ↔ 0 < p ∧ p ≤ ctPosition db source
  /-- The alerts are the unexpected observations. -/
  alerted : ∀ key, (db.ctAlerts.find? key).map alertIssuance =
    ((db.ctObservations.find? key).filter (fun o => !o.expected)).map observationIssuance
  /-- The alerts are numbered from 1. -/
  numbered : db.ctAlerts.rows.map (·.id) = List.range' 1 db.ctAlerts.rows.length
  /-- The positions fit their column. -/
  bounded : ∀ source, ctPosition db source < 2 ^ 63

theorem consistent_migrated : Consistent Db.migrated := by
  have hzero : ∀ source, ctPosition Db.migrated source = 0 := fun _ => rfl
  refine ⟨fun source p => ?_, fun key => rfl, rfl, fun source => ?_⟩
  swap
  · rw [hzero]
    decide
  rw [hzero]
  constructor
  · intro h
    exact absurd rfl h
  · intro h
    omega

namespace Consistent

/-- The next position is free in both tables. -/
theorem next_free (h : Consistent db) (source : String) :
    db.ctObservations.find? (source, ctPosition db source + 1) = none ∧
      db.ctAlerts.find? (source, ctPosition db source + 1) = none := by
  have hobs : db.ctObservations.find? (source, ctPosition db source + 1) = none := by
    by_contra hne
    have := (h.contiguous _ _).mp hne
    omega
  refine ⟨hobs, ?_⟩
  have halert := h.alerted (source, ctPosition db source + 1)
  rw [hobs] at halert
  exact Option.map_eq_none_iff.mp halert

/-- A write that leaves the positions, the observations and the alerts alone. -/
theorem keep (h : Consistent db) (hpositions : ∀ source, ctPosition db' source = ctPosition db source)
    (hobs : db'.ctObservations = db.ctObservations) (halerts : db'.ctAlerts = db.ctAlerts) :
    Consistent db' := by
  refine ⟨fun source p => ?_, fun key => ?_, ?_, fun source => ?_⟩
  · rw [hobs, hpositions]
    exact h.contiguous source p
  · rw [hobs, halerts]
    exact h.alerted key
  · rw [halerts]
    exact h.numbered
  · rw [hpositions]
    exact h.bounded source

theorem deliver (h : Consistent db) (now : Time) (id : Nat) :
    Consistent (markCtAlertDelivered db now id) := by
  obtain ⟨hobs, hchecked, -⟩ := markCtAlertDelivered_keeps db now id
  refine ⟨fun source p => ?_, fun key => ?_, ?_, fun source => ?_⟩
  · rw [hobs, ctPosition, hchecked]
    exact h.contiguous source p
  · rw [hobs, find_markCtAlertDelivered, Option.map_map, ← h.alerted key]
    refine congrArg (fun f => (db.ctAlerts.find? key).map f) (funext fun a => ?_)
    exact alertIssuance_delivered now id a
  · rw [rows_markCtAlertDelivered, List.length_map, List.map_map, ← h.numbered]
    exact List.map_congr_left fun a _ => id_delivered now id a
  · rw [ctPosition, hchecked]
    exact h.bounded source

/-- An observation at the next position. -/
theorem record (h : Consistent db) (hnext : entry.position = ctPosition db source + 1)
    (hlt : entry.position < 2 ^ 63) (hrec : Records db now source entry owner expected db') : Consistent db' := by
  obtain ⟨hfree, halertFree⟩ := h.next_free source
  rw [← hnext] at hfree halertFree
  have hposition : ∀ source', ctPosition db' source' =
      if source = source' then entry.position else ctPosition db source' := by
    intro source'
    unfold ctPosition
    rw [hrec.checkpoint]
    by_cases heq : source = source'
    · rw [if_pos heq, if_pos heq]
      rfl
    · rw [if_neg heq, if_neg heq]
  have hobs : ∀ key, db'.ctObservations.find? key = if (source, entry.position) = key then
      some (observationOf now source entry owner expected) else db.ctObservations.find? key := by
    intro key
    by_cases heq : (source, entry.position) = key
    · subst heq
      rw [if_pos rfl]
      exact Table.find?_insert?_self hrec.observation
    · rw [if_neg heq]
      exact Table.find?_insert?_ne hrec.observation heq
  have halerts : ∀ key, (db'.ctAlerts.find? key).map alertIssuance =
      if (source, entry.position) = key then
        (if expected then none else some (owner, entry.hostname, entry.keyFingerprint))
      else (db.ctAlerts.find? key).map alertIssuance := by
    intro key
    have halert := hrec.alert
    cases expected with
    | true =>
      have hsame : db'.ctAlerts = db.ctAlerts := halert
      rw [hsame]
      by_cases heq : (source, entry.position) = key
      · subst heq
        rw [if_pos rfl, halertFree]
        rfl
      · rw [if_neg heq]
    | false =>
      have hins : db.ctAlerts.insert? (alertOf db now source entry owner) = some db'.ctAlerts :=
        halert
      by_cases heq : (source, entry.position) = key
      · subst heq
        have hself : db'.ctAlerts.find? (source, entry.position) =
          some (alertOf db now source entry owner) := Table.find?_insert?_self hins
        rw [if_pos rfl, hself]
        rfl
      · rw [if_neg heq, Table.find?_insert?_ne hins heq]
  refine ⟨fun source' p => ?_, fun key => ?_, ?_, fun source' => ?_⟩
  · rw [hobs, hposition]
    by_cases hsource : source = source'
    · subst hsource
      rw [if_pos rfl]
      by_cases hp : entry.position = p
      · subst hp
        rw [if_pos rfl]
        have hpos : 0 < entry.position := by omega
        exact ⟨fun _ => ⟨hpos, le_rfl⟩, fun _ => Option.some_ne_none _⟩
      · rw [if_neg fun heq => hp (Prod.mk.inj heq).2, h.contiguous]
        omega
    · rw [if_neg hsource, if_neg fun heq => hsource (Prod.mk.inj heq).1]
      exact h.contiguous source' p
  · rw [halerts, hobs]
    by_cases heq : (source, entry.position) = key
    · rw [if_pos heq, if_pos heq]
      cases expected with
      | true => rfl
      | false => rfl
    · rw [if_neg heq, if_neg heq]
      exact h.alerted key
  · have halert := hrec.alert
    cases expected with
    | true =>
      have hsame : db'.ctAlerts = db.ctAlerts := halert
      rw [hsame]
      exact h.numbered
    | false =>
      have hins : db.ctAlerts.insert? (alertOf db now source entry owner) = some db'.ctAlerts :=
        halert
      obtain ⟨-, hrows⟩ := (Table.insert?_eq_some_iff _).mp hins
      rw [hrows, List.map_append, h.numbered, List.length_append, List.length_singleton,
        List.range'_concat]
      simp [alertOf, Nat.add_comm]
  · rw [hposition]
    by_cases hsource : source = source'
    · rw [if_pos hsource]
      exact hlt
    · rw [if_neg hsource]
      exact h.bounded source'

theorem observe (h : Consistent db) (entry : CtEntry) {b : Bool}
    (hobs : observeCt db now source entry.position entry.hostname entry.keyFingerprint =
      .ok (b, db')) : Consistent db' := by
  rw [observeCt_eq, bind_eq_ok] at hobs
  obtain ⟨answer, hstart, hrest⟩ := hobs
  cases answer with
  | some v =>
    cases hrest
    exact h
  | none =>
    obtain ⟨hnext, hlt⟩ := observeStart_next hstart
    cases hrec : recordVerdict db now source entry (ownerOf db entry.hostname)
        (issuanceExpected db entry.hostname entry.keyFingerprint) with
    | error e =>
      rw [hrec] at hrest
      cases hrest
    | ok db₁ =>
      rw [hrec] at hrest
      cases hrest
      exact h.record hnext hlt (recordVerdict_ok hrec)

/-- Two alerts with the same number are the same alert. -/
theorem id_inj (h : Consistent db) {a b : CtAlert} (ha : a ∈ db.ctAlerts.rows)
    (hb : b ∈ db.ctAlerts.rows) (hid : a.id = b.id) : a = b := by
  have hnodup : (db.ctAlerts.rows.map (·.id)).Nodup := by
    rw [h.numbered]
    exact List.nodup_range'
  exact List.inj_on_of_nodup_map hnodup ha hb hid

end Consistent

/-- The answer for a position that has been recorded. -/
theorem observeStart_recorded {db : Db} (hdb : Consistent db) {source : String} {entry : CtEntry}
    (h : ValidEntry source entry) {o : CtObservation}
    (ho : db.ctObservations.find? (source, entry.position) = some o) :
    observeStart db source entry =
      if o.hostname = entry.hostname ∧ o.fingerprint = entry.keyFingerprint then .ok (some o.expected)
      else .error .conflict := by
  have hle : entry.position ≤ ctPosition db source :=
    ((hdb.contiguous source entry.position).mp (by rw [ho]; exact Option.some_ne_none o)).2
  rw [observeStart_valid h, if_pos hle, ho]
  by_cases hsame : o.hostname = entry.hostname ∧ o.fingerprint = entry.keyFingerprint
  · rw [if_pos hsame]
    simp [found, require, hsame, bind, Except.bind]
  · rw [if_neg hsame]
    simp [found, require, hsame, bind, Except.bind]

theorem observeStart_gap {db : Db} {source : String} {entry : CtEntry} (h : ValidEntry source entry)
    (hgap : ctPosition db source + 1 < entry.position) :
    observeStart db source entry = .error .conflict := by
  have hnot : ¬ entry.position ≤ ctPosition db source := by omega
  have hne : entry.position ≠ ctPosition db source + 1 := by omega
  rw [observeStart_valid h, if_neg hnot]
  simp [require, hne, bind, Except.bind]

theorem observeCt_error (now : Time) {e : StoreError} (h : observeStart db source entry = .error e) :
    observeCt db now source entry.position entry.hostname entry.keyFingerprint = .error e := by
  rw [observeCt_eq, h]
  rfl

theorem observeCt_replay (now : Time) {b : Bool} (h : observeStart db source entry = .ok (some b)) :
    observeCt db now source entry.position entry.hostname entry.keyFingerprint = .ok (b, db) := by
  rw [observeCt_eq, h]
  rfl

theorem observeCt_invalid (now : Time) (h : ¬ ValidEntry source entry) :
    observeCt db now source entry.position entry.hostname entry.keyFingerprint =
      .error .invalidRequest := by
  exact observeCt_error now (observeStart_invalid h)

/-- A valid entry at the next position is recorded. -/
theorem observeCt_next (now : Time) (hdb : Consistent db) (h : ValidEntry source entry)
    (hnext : entry.position = ctPosition db source + 1) :
    ∃ db', observeCt db now source entry.position entry.hostname entry.keyFingerprint =
        .ok (issuanceExpected db entry.hostname entry.keyFingerprint, db') ∧
      Records db now source entry (ownerOf db entry.hostname)
        (issuanceExpected db entry.hostname entry.keyFingerprint) db' := by
  have hstart : observeStart db source entry = .ok none := by
    have hnot : ¬ entry.position ≤ ctPosition db source := by omega
    rw [observeStart_valid h, if_neg hnot]
    simp [require, hnext, bind, Except.bind]
  obtain ⟨hobs, halert⟩ := hdb.next_free source
  rw [← hnext] at hobs halert
  obtain ⟨db', hrec⟩ := recordVerdict_free now (ownerOf db entry.hostname)
    (issuanceExpected db entry.hostname entry.keyFingerprint) hobs halert
  refine ⟨db', ?_, recordVerdict_ok hrec⟩
  rw [observeCt_eq, hstart]
  show (recordVerdict db now source entry (ownerOf db entry.hostname)
    (issuanceExpected db entry.hostname entry.keyFingerprint)).map _ = _
  rw [hrec]
  rfl

/-- After an entry is recorded, an entry at its position is the same one if the texts agree, and a
conflict if they do not. -/
theorem observeCt_recorded (now : Time) (hdb : Consistent db) (h : ValidEntry source entry) {o : CtObservation}
    (ho : db.ctObservations.find? (source, entry.position) = some o) :
    observeCt db now source entry.position entry.hostname entry.keyFingerprint =
      if o.hostname = entry.hostname ∧ o.fingerprint = entry.keyFingerprint then .ok (o.expected, db)
      else .error .conflict := by
  have hstart := observeStart_recorded hdb h ho
  by_cases hsame : o.hostname = entry.hostname ∧ o.fingerprint = entry.keyFingerprint
  · rw [if_pos hsame] at hstart ⊢
    exact observeCt_replay now hstart
  · rw [if_neg hsame] at hstart ⊢
    exact observeCt_error now hstart

/-! ## The owner of a hostname -/

theorem ownerOf_eq_names (db : Db) (hostname : String) :
    ownerOf db hostname =
      (db.names.find? fun n => n.hostname = hostname).map (·.installationId) := by
  rw [ownerOf, Db.names, List.find?_map, Option.map_map]
  rfl

/-- A hostname is never taken from its owner. -/
theorem ownerOf_call (sha256 : Bytes → Bytes32) (call : Call) {db : Db} {hostname : String} {id : Uuid}
    (h : ownerOf db hostname = some id) : ownerOf (call.after sha256 db) hostname = some id := by
  rcases (call_effect sha256 call db).names with hsame | ⟨r, res, halloc⟩
  · rw [ownerOf_eq_names, hsame.names, ← ownerOf_eq_names]
    exact h
  · rw [ownerOf] at h ⊢
    obtain ⟨i, hi, rfl⟩ := Option.map_eq_some_iff.mp h
    rw [halloc.rows, List.find?_append, hi]
    rfl

/-! ## Calls -/

/-- The calls other than `observe_ct` and `mark_ct_alert_delivered` leave the three tables alone, the
time of the last healthy answer apart. -/
theorem call_keeps (sha256 : Bytes → Bytes32) (call : Call) (db : Db)
    (hcall : Monitor.isStaged call.op = false) :
    (∀ source, ctPosition (call.after sha256 db) source = ctPosition db source) ∧
      (call.after sha256 db).ctObservations = db.ctObservations ∧
      (call.after sha256 db).ctAlerts = db.ctAlerts := by
  have hsame : ∀ db' : Db, db'.ctFeedCheckpoints = db.ctFeedCheckpoints → ∀ source,
      ctPosition db' source = ctPosition db source := by
    intro db' hchecked source
    rw [ctPosition, hchecked]
    rfl
  obtain heq | ⟨reply, -, htx, -⟩ := after_cases sha256 call db
  · rw [heq]
    exact ⟨fun _ => rfl, rfl, rfl⟩
  by_cases hwrites : call.op.writesCt = false
  · have hct := (call_effect sha256 call db).ct hwrites
    exact ⟨hsame _ (congrArg CtTables.checkpoints hct), congrArg CtTables.observations hct,
      congrArg CtTables.alerts hct⟩
  -- three calls that write other columns of the tables, or the inventory
  generalize call.after sha256 db = db' at htx
  cases hop : call.op with
  | ensureCtSource source =>
    rw [hop] at htx
    obtain ⟨u, hu, -⟩ := answer_ok.mp htx
    rw [ensureCtSource_ok hu]
    obtain ⟨hobs, halerts, -⟩ := ensureCheckpoint_keeps db call.now source
    exact ⟨ctPosition_ensureCheckpoint db call.now source, hobs, halerts⟩
  | markCtFeedHealthy source position =>
    rw [hop] at htx
    obtain ⟨u, hu, -⟩ := answer_ok.mp htx
    rw [markCtFeedHealthy_ok hu]
    refine ⟨fun source' => ?_, rfl, rfl⟩
    exact ctPosition_modifyCheckpoint source (fun c => { c with observedAt := call.now })
      (fun _ => rfl) (fun _ => rfl) source'
  | recordExpectedCertificate id certificate =>
    rw [hop] at htx
    obtain ⟨u, hu, -⟩ := answer_ok.mp htx
    obtain ⟨row, -, -, rfl⟩ := recordExpectedCertificate_ok hu
    exact ⟨fun _ => rfl, rfl, rfl⟩
  | observeCt source position hostname fingerprint =>
    rw [hop] at hcall
    cases hcall
  | markCtAlertDelivered id =>
    rw [hop] at hcall
    cases hcall
  | _ =>
    rw [hop] at hwrites
    exact absurd rfl hwrites

/-- The tables agree in every database the store reaches. -/
theorem consistent_run {sha256 : Bytes → Bytes32} {tr : List (Event Db Call)}
    (h : StoreRun sha256 tr db) : Consistent db := by
  refine h.state_invariant Consistent consistent_migrated fun db call db' hdb hstep => ?_
  obtain rfl : db' = call.after sha256 db := hstep
  by_cases hcall : Monitor.isStaged call.op = false
  · obtain ⟨hpositions, hobs, halerts⟩ := call_keeps sha256 call db hcall
    exact hdb.keep hpositions hobs halerts
  obtain heq | ⟨reply, -, htx, -⟩ := after_cases sha256 call db
  · rw [heq]
    exact hdb
  generalize call.after sha256 db = db' at htx
  cases hop : call.op with
  | observeCt source position hostname fingerprint =>
    rw [hop] at htx
    obtain ⟨u, hu, -⟩ := answer_ok.mp htx
    exact hdb.observe ⟨position, hostname, fingerprint⟩ hu
  | markCtAlertDelivered id =>
    rw [hop] at htx
    cases htx
    exact hdb.deliver call.now id
  | _ =>
    rw [hop] at hcall
    exact absurd rfl hcall

end BloomRelay.Ct
