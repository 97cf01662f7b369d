import BloomRelay.Dns.Records
import BloomRelay.Store.Proofs.QueueProofs

/-!
# The challenge set of an installation

The stored values are distinct, valid and few enough for a provider to accept them, whatever the
order of commits and timestamps; every change of the set advances the revision by one and queues one
job, and nothing else does.
-/

namespace BloomRelay.Store

open Protocol Checked

variable {i : Uuid} {v v' : View} {c : Change}

/-! ## Over the life of one installation -/

/-- What holds of the stored values of an installation. -/
structure ChallengeSet (v : View) : Prop where
  nodup : (v.values.map (·.txtValue)).Nodup
  valid : ∀ x ∈ v.values, validateChallengeValue x.txtValue = .ok ()
  bounded : v.values.length ≤ maxLiveChallengeValues
  counted : v.queued .reconcileTxt = v.revision

namespace ChallengeSet

theorem migrated (i : Uuid) : ChallengeSet (Db.migrated.view i) :=
  ⟨List.nodup_nil, fun _ hx => absurd hx List.not_mem_nil, Nat.zero_le _, rfl⟩

/-- A step that leaves the values and the number of reconciliations alone. -/
theorem keep (h : ChallengeSet v) (hvalues : v'.values = v.values)
    (hqueued : v'.queued .reconcileTxt = v.queued .reconcileTxt)
    (hrevision : v'.revision = v.revision) : ChallengeSet v' :=
  ⟨hvalues ▸ h.nodup, hvalues ▸ h.valid, hvalues ▸ h.bounded, by
    rw [hqueued, hrevision]; exact h.counted⟩

theorem queued_reconcile {o : OutboxRow} (ho : NewJob i .reconcileTxt o) :
    (v.jobs ++ [o]).countP (fun o => o.kind = .reconcileTxt) = v.queued .reconcileTxt + 1 := by
  simp [View.queued, ho.2.1]

theorem txtValue_refreshed (values : List ChallengeValue) (txt : String) (expiresAt : Time) :
    (values.map fun x => if x.txtValue = txt then { x with expiresAt := expiresAt } else x).map
      (·.txtValue) = values.map (·.txtValue) := by
  rw [List.map_map]
  refine List.map_congr_left fun x _ => ?_
  by_cases hx : x.txtValue = txt
  · simp [hx]
  · simp [hx]

theorem nodup_filter (h : ChallengeSet v) (p : ChallengeValue → Bool) :
    ((v.values.filter p).map (·.txtValue)).Nodup :=
  h.nodup.sublist (List.filter_sublist.map _)

/-- The value that joins the set is none of those that stay. -/
theorem nodup_added (h : ChallengeSet v) {now : Time} {x : ChallengeValue}
    (hnew : ∀ y ∈ v.values, now < y.expiresAt → y.txtValue ≠ x.txtValue) :
    (((v.values.filter fun y => now < y.expiresAt) ++ [x]).map (·.txtValue)).Nodup := by
  rw [List.map_append, List.map_singleton]
  refine List.nodup_append.mpr ⟨h.nodup_filter _, List.nodup_singleton _, ?_⟩
  intro t ht t' ht' heq
  obtain ⟨y, hy, rfl⟩ := List.mem_map.mp ht
  obtain ⟨hmem, hlive⟩ := List.mem_filter.mp hy
  rw [List.mem_singleton.mp ht'] at heq
  exact hnew y hmem (by simpa using hlive) heq

theorem step (h : ChallengeSet v) (hv : Challenged v) (hs : LifeStep i v c v') :
    ChallengeSet v' := by
  cases hs with
  | same | issued | renewed | dnsReady | claimed | leaseRenewed => exact h.keep rfl rfl rfl
  | allocated r o hrow _ _ _ _ ho => exact h.keep rfl (ho.queued_of_ne nofun) rfl
  | acmeBound r uri o hrow hstate ho => exact h.keep rfl (ho.queued_of_ne nofun) rfl
  | relocated r placement o hrow hstate hplace ho => exact h.keep rfl (ho.queued_of_ne nofun) rfl
  | retired r now o o' hrow hstate ho ho' =>
    refine ⟨List.nodup_nil, fun _ hx => absurd hx List.not_mem_nil, Nat.zero_le _, ?_⟩
    show (v.jobs ++ [o, o']).countP _ = v.revision
    simpa [View.queued, ho.2.1, ho'.2.1] using h.counted
  | expired r now o o' hrow hstate ho ho' =>
    refine h.keep rfl ?_ rfl
    show (v.jobs ++ [o, o']).countP _ = _
    simp [View.queued, ho.2.1, ho'.2.1]
  | refreshed r txt expiresAt hrow hstate hlive =>
    refine ⟨?_, ?_, ?_, ?_⟩
    · exact (txtValue_refreshed v.values txt expiresAt).symm ▸ h.nodup
    · intro x hx
      obtain ⟨y, hy, rfl⟩ := List.mem_map.mp hx
      have hvalid := h.valid y hy
      split <;> exact hvalid
    · exact (List.length_map _).trans_le h.bounded
    · show v.queued .reconcileTxt = (challengeStateOr i v.challenge).revision
      rw [v.revision_challengeStateOr]
      exact h.counted
  | valueAdded r now x o hrow hstate hid hnew hvalid hroom hexp ho =>
    refine ⟨h.nodup_added hnew, ?_, ?_, ?_⟩
    · intro y hy
      rcases List.mem_append.mp hy with hy | hy
      · exact h.valid y (List.mem_of_mem_filter hy)
      · rw [List.mem_singleton.mp hy]
        exact hvalid
    · rw [List.length_append, List.length_singleton]
      exact hroom
    · show (v.jobs ++ [o]).countP _ = (challengeStateOr i v.challenge).revision + 1
      rw [queued_reconcile ho, v.revision_challengeStateOr, h.counted]
  | valuesLapsed now o hlapsed ho =>
    obtain ⟨x, hx, -⟩ := hlapsed
    refine ⟨h.nodup_filter _, fun y hy => h.valid y (List.mem_of_mem_filter hy),
      (List.length_filter_le _ _).trans h.bounded, ?_⟩
    show (v.jobs ++ [o]).countP _ =
      ((v.challenge.map ChallengeState.bump).map (·.revision)).getD 0
    rw [queued_reconcile ho, v.revision_bump, if_neg (hv.state (List.ne_nil_of_mem hx)), h.counted]
  | reconciled s hs =>
    refine h.keep rfl rfl ?_
    simp [View.revision, hs]
  | jobRecorded f hf =>
    refine h.keep rfl ?_ rfl
    show (v.jobs.map f).countP _ = _
    rw [List.countP_map]
    refine List.countP_congr fun o _ => ?_
    simp [(hf o).2.2]

theorem run {tr : List (Event View Change)} (h : LifeRun i tr v) : ChallengeSet v := by
  refine h.invariant (fun _ v => ChallengeSet v) (migrated i) ?_
  intro tr v c v' hrun hset hs
  exact hset.step (Challenged.run hrun) hs

end ChallengeSet

/-- A change of the stored set is the clearing of a retirement, or it advances the revision by one and
queues one reconciliation. -/
theorem LifeStep.members_change (h : LifeStep i v c v') (hv : Challenged v)
    (hne : v'.members ≠ v.members) :
    c = .retired ∧ v'.values = [] ∨
      v'.revision = v.revision + 1 ∧ ∃ o, NewJob i .reconcileTxt o ∧ v'.jobs = v.jobs ++ [o] := by
  cases h with
  | retired => exact .inl ⟨rfl, rfl⟩
  | refreshed r txt expiresAt hrow hstate hlive =>
    refine absurd ?_ hne
    unfold View.members
    rw [ChallengeSet.txtValue_refreshed]
  | valueAdded r now x o hrow hstate hid hnew hvalid hroom hexp ho =>
    refine .inr ⟨?_, o, ho, rfl⟩
    show (challengeStateOr i v.challenge).revision + 1 = v.revision + 1
    rw [v.revision_challengeStateOr]
  | valuesLapsed now o hlapsed ho =>
    obtain ⟨x, hx, -⟩ := hlapsed
    refine .inr ⟨?_, o, ho, rfl⟩
    show ((v.challenge.map ChallengeState.bump).map (·.revision)).getD 0 = v.revision + 1
    rw [v.revision_bump, if_neg (hv.state (List.ne_nil_of_mem hx))]
  | _ => exact absurd rfl hne

/-! ## In the database -/

section Database

variable {sha256 : Bytes → Bytes32} {db db' : Db} {tr : List (Event Db Call)} {now : Time}
  {generation : Nat} {txt : String}

/-- The set a worker publishes is one that every provider accepts. -/
theorem ChallengeSet.accepted (h : ChallengeSet v) :
    Dns.validateChallengeValues v.members = .ok () := by
  have hperm : v.members.Perm (v.values.map (·.txtValue)) := List.mergeSort_perm _ _
  have hlength : v.members.length ≤ maxLiveChallengeValues := by
    rw [hperm.length_eq, List.length_map]
    exact h.bounded
  have hdedup : v.members.dedup = v.members := (hperm.nodup_iff.mpr h.nodup).dedup
  have hvalid : ∀ t ∈ v.members, validateChallengeValue t = .ok () := by
    intro t ht
    obtain ⟨x, hx, rfl⟩ := List.mem_map.mp (hperm.mem_iff.mp ht)
    exact h.valid x hx
  unfold Dns.validateChallengeValues
  rw [if_neg]
  rintro (hlong | hdup | hbad)
  · omega
  · exact hdup (by rw [hdedup])
  · obtain ⟨t, ht, hne⟩ := List.any_eq_true.mp hbad
    exact (of_decide_eq_true hne) (hvalid t ht)

/-- The values of an installation have a revision row. -/
theorem challengeState_of_value (h : StoreRun sha256 tr db) {x : ChallengeValue}
    (hx : db.challengeValues.find? (i, txt) = some x) : db.challengeState.find? i ≠ none := by
  have hmem : x ∈ (db.view i).values := (mem_values_iff.mpr hx).1
  exact (Challenged.run (life_run h i)).state (List.ne_nil_of_mem hmem)

theorem ensureChallengeState_of_found (h : db.challengeState.find? i ≠ none) :
    db.ensureChallengeState i = db := by
  unfold Db.ensureChallengeState
  rw [Table.insertNew_of_find? _ h]

/-- Ensuring a live value moves its expiry and nothing else. -/
theorem ensure_live (h : StoreRun sha256 tr db) (hlive : liveValue db now i txt ≠ none)
    {r : Nat × Nat} (hok : ensureChallengeValue db now i generation txt = .ok (r, db')) :
    db' = db.refreshValue i txt (now + challengeLifetime) := by
  obtain ⟨-, -, row, -, -, ⟨x, hx, rfl⟩ | ⟨hnone, -⟩⟩ := ensureChallengeValue_ok hok
  · rw [ensureChallengeState_of_found (challengeState_of_value h (liveValue_eq_some.mp hx).1)]
  · exact absurd hnone hlive

/-- After lapsed values are dropped, the key of a value that is not live is free. -/
theorem insert_after_dropLapsed (hnone : liveValue db now i txt = none) :
    ∃ db₁, (db.dropLapsed now i).insertChallengeValue ⟨i, txt, now + challengeLifetime, now⟩ =
      .ok db₁ := by
  have hfree : (db.dropLapsed now i).challengeValues.find? (i, txt) = none := by
    rw [Db.dropLapsed, Table.find?_deleteWhere]
    cases hfind : db.challengeValues.find? (i, txt) with
    | none => rfl
    | some x =>
      have hkey := db.challengeValues.find?_key hfind
      have hlapsed : ¬ now < x.expiresAt := by
        intro hlive
        have hsome : liveValue db now i txt = some x := liveValue_eq_some.mpr ⟨hfind, hlive⟩
        rw [hnone] at hsome
        cases hsome
      simp [(Prod.mk.inj hkey).1, Nat.le_of_not_lt hlapsed]
  cases hins : (db.dropLapsed now i).challengeValues.insert?
      ⟨i, txt, now + challengeLifetime, now⟩ with
  | none => exact absurd hfree ((Table.insert?_eq_none_iff _).mp hins)
  | some t =>
    refine ⟨{ db.dropLapsed now i with challengeValues := t }, ?_⟩
    simp only [Db.insertChallengeValue, hins]
    rfl

/-- An ensure that stores its value finds the revision to answer with. -/
theorem challengeState_of_stored {db₁ : Db}
    (h : storeChallengeValue (db.ensureChallengeState i) now i txt = .ok db₁) :
    db₁.challengeState.find? i ≠ none := by
  have hstate : (db.ensureChallengeState i).challengeState.find? i ≠ none := by
    unfold Db.ensureChallengeState
    rw [Table.find?_insertNew_self]
    exact Option.some_ne_none _
  unfold storeChallengeValue at h
  split at h
  · cases h
    exact hstate
  · obtain ⟨-, db₂, hins, rfl⟩ := addChallengeValue_ok h
    obtain ⟨t, -, rfl⟩ := insertChallengeValue_ok hins
    show ((db.ensureChallengeState i).challengeState.modify i ChallengeState.bump
      ChallengeState.bump_installationId).find? i ≠ none
    rw [Table.find?_modify_self]
    simpa using hstate

theorem addChallengeValue_error {e : StoreError} (hnone : liveValue db now i txt = none)
    (h : addChallengeValue db now i txt = .error e) : e = .conflict := by
  simp only [addChallengeValue, bind_eq_error, require_eq_error] at h
  rcases h with ⟨-, rfl⟩ | ⟨-, -, hins | ⟨_, -, h⟩⟩
  · rfl
  · obtain ⟨db₁, hok⟩ := insert_after_dropLapsed hnone
    rw [hok] at hins
    cases hins
  · cases h

/-- An ensure is refused by one of its checks, never by the key of a value or a missing row. -/
theorem ensureChallengeValue_error {e : StoreError}
    (h : ensureChallengeValue db now i generation txt = .error e) :
    e = .invalidRequest ∨ e = .unauthorized ∨ e = .conflict := by
  simp only [ensureChallengeValue, bind_eq_error, require_eq_error, found_eq_error] at h
  rcases h with ⟨-, rfl⟩ | ⟨-, -, ⟨-, rfl⟩ | ⟨_, -, ⟨-, rfl⟩ | ⟨-, -, h | ⟨db₁, h, hstate⟩⟩⟩⟩
  · exact .inl rfl
  · exact .inr (.inr rfl)
  · exact .inr (.inl rfl)
  · unfold storeChallengeValue at h
    split at h
    · cases h
    · rename_i hnone
      exact .inr (.inr (addChallengeValue_error hnone h))
  · rcases hstate with ⟨hnone, -⟩ | ⟨_, -, h⟩
    · exact absurd hnone (challengeState_of_stored h)
    · cases h

/-- The expiry of an allocation leaves the values alone: a pending installation has none to clear. -/
theorem values_of_expiredAllocation {call : Call} (hop : call.op = .expirePendingAllocation i) :
    ((call.after sha256 db).view i).values = (db.view i).values := by
  unfold Call.after
  cases h : call.exec sha256 db with
  | error e => rfl
  | ok r =>
    have htx := (exec_ok h).1
    rw [hop] at htx
    have hdb : r.2 = (expirePendingAllocation db call.now i).2 := (answer_total.mp htx).2
    simp only [hdb]
    obtain heq | ⟨row, -, -, heq⟩ := expirePendingAllocation_cases db call.now i
    · rw [heq]
    · rw [heq]
      rfl

/-- Which call clears the values of an installation. -/
theorem retire_of_cleared {call : Call} (hc : call.change sha256 db i = .retired)
    (hne : ((call.after sha256 db).view i).members ≠ (db.view i).members) :
    ∃ op, call.op = .retire i op := by
  have hby := call_changedBy sha256 call db i
  rw [hc] at hby
  generalize hop : call.op = op at hby
  cases hby with
  | retired operationId => exact ⟨operationId, rfl⟩
  | expired =>
    refine absurd ?_ hne
    unfold View.members
    rw [values_of_expiredAllocation hop]

/-- After any calls in any commit order and with any timestamps, the stored values of an installation
are a set that a provider accepts, and its revision counts the reconciliations ever queued. From there
a call that changes the set is the clearing of a retirement, or it advances the revision by one and
queues one job; and an ensure of a live value moves its expiry only, is refused by one of its checks
only, and changes nothing when it is refused. -/
theorem challenge_set_maintained (h : StoreRun sha256 tr db) (i : Uuid) :
    (((valuesOf db i).map (·.txtValue)).Nodup ∧
      (∀ x ∈ valuesOf db i, validateChallengeValue x.txtValue = .ok ()) ∧
      (valuesOf db i).length ≤ maxLiveChallengeValues ∧
      Dns.validateChallengeValues (challengeTarget db i).2 = .ok () ∧
      db.queued i .reconcileTxt = (challengeTarget db i).1) ∧
    (∀ call : Call,
      (challengeTarget (call.after sha256 db) i).2 ≠ (challengeTarget db i).2 →
      (∃ op, call.op = .retire i op) ∧ valuesOf (call.after sha256 db) i = [] ∨
      (challengeTarget (call.after sha256 db) i).1 = (challengeTarget db i).1 + 1 ∧
        ∃ o, NewJob i .reconcileTxt o ∧
          ((call.after sha256 db).view i).jobs = (db.view i).jobs ++ [o]) ∧
    ∀ (store : StoreConfig) (now : Time) (generation : Nat) (txt : String),
      (∀ reply db', liveValue db now i txt ≠ none →
        (⟨store, now, .ensureChallengeValue i generation txt⟩ : Call).exec sha256 db =
          .ok (reply, db') → db' = db.refreshValue i txt (now + challengeLifetime)) ∧
      (∀ e, ensureChallengeValue db now i generation txt = .error e →
        (e = .invalidRequest ∨ e = .unauthorized ∨ e = .conflict) ∧
        (⟨store, now, .ensureChallengeValue i generation txt⟩ : Call).after sha256 db = db) := by
  have hlife := life_run h i
  have hset := ChallengeSet.run hlife
  refine ⟨⟨hset.nodup, hset.valid, hset.bounded, hset.accepted, ?_⟩, ?_, ?_⟩
  · rw [← queued_view]
    exact hset.counted
  · intro call hne
    rcases (life_step call db i).members_change (Challenged.run hlife) hne with
      ⟨hc, hnil⟩ | hchange
    · exact .inl ⟨retire_of_cleared hc hne, hnil⟩
    · exact .inr hchange
  · intro store now generation txt
    refine ⟨fun reply db' hlive hexec => ?_, fun e he => ⟨ensureChallengeValue_error he, ?_⟩⟩
    · obtain ⟨r, hok, -⟩ := answer_ok.mp (exec_ok hexec).1
      exact ensure_live h hlive hok
    · simp [Call.after, Call.exec, StoreOp.transact, he, answer]

/-- A claimed installation gets a challenge credential and ensures a value. -/
def ensuredCalls : List Call :=
  ⟨.default, 70, .ensureChallengeValue 7 3 "0123456789012345678901234567890123456789012"⟩ ::
    ⟨.default, 60, .issueBearer 7 3 "dns_challenge" 0 3600⟩ :: claimedCalls

theorem challenge_set_maintained_ensured :
    (valuesOf (runOf (fun _ => 0) ensuredCalls).2 7).length = 1 ∧
      (runOf (fun _ => 0) ensuredCalls).2.queued 7 .reconcileTxt =
        (challengeTarget (runOf (fun _ => 0) ensuredCalls).2 7).1 ∧
      (challengeTarget (runOf (fun _ => 0) ensuredCalls).2 7).1 = 1 := by
  refine ⟨?_, (challenge_set_maintained (storeRun_runOf (fun _ => 0) ensuredCalls) 7).1.2.2.2.2, ?_⟩
  · decide +kernel
  · decide +kernel

end Database

end BloomRelay.Store
