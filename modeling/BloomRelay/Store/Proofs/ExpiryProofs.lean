import BloomRelay.Store.Proofs.ChallengeSetProofs
import BloomRelay.Store.Proofs.EffectProofs
import BloomRelay.Store.Proofs.OverlapProofs

/-!
# The expiry that an ensure answers

An ensure promises that its value stays in the set until the expiry it answers with. The expiry is counted
from the start of its transaction, while the row lock of the installation decides which of two
transactions comes first, so that an ensure that started earlier and comes later takes time back.
-/

namespace BloomRelay.Store

open Protocol Checked

variable {sha256 : Bytes → Bytes32} {db db' : Db} {now start : Time} {i id : Uuid} {txt : String}
  {call : Call}

/-- The transactions that drop lapsed values of the installation. -/
def StoreOp.dropsLapsed (op : StoreOp) (i : Uuid) : Bool :=
  match op with
  | .ensureChallengeValue id _ _ | .expireChallengeValuesOf id => id = i
  | _ => false

/-- What can become of a value in a call: it stays, its expiry is counted again, it had lapsed, or the
installation is retired. -/
inductive ValueAfter (i : Uuid) (txt : String) (x : ChallengeValue) (op : StoreOp) (now : Time)
    (db' : Db) : Prop where
  | kept (h : db'.challengeValues.find? (i, txt) = some x)
  | ensured {generation : Nat} {y : ChallengeValue} (hop : op = .ensureChallengeValue i generation txt)
      (h : db'.challengeValues.find? (i, txt) = some y) (hexpiry : y.expiresAt = now + challengeLifetime)
  | lapsed (hop : op.dropsLapsed i = true) (hexpiry : x.expiresAt ≤ now)
  | retired {r : Installation} (h : db'.installations.find? i = some r) (hstate : r.state = .retired)

theorem find_dropLapsed {x : ChallengeValue} (hx : db.challengeValues.find? (i, txt) = some x)
    (now : Time) (id : Uuid) :
    (db.dropLapsed now id).challengeValues.find? (i, txt) = some x ∨ id = i ∧ x.expiresAt ≤ now := by
  have hkey := db.challengeValues.find?_key hx
  have hi : x.installationId = i := (Prod.mk.inj hkey).1
  rw [Db.dropLapsed, Table.find?_deleteWhere, hx]
  by_cases hdrop : x.installationId = id ∧ x.expiresAt ≤ now
  · exact .inr ⟨hdrop.1.symm.trans hi, hdrop.2⟩
  · refine .inl (Option.filter_eq_some_iff.mpr ⟨rfl, ?_⟩)
    rw [decide_eq_false hdrop]
    rfl

theorem find_refreshValue_self {expiry : Time} :
    (db.refreshValue i txt expiry).challengeValues.find? (i, txt) =
      (db.challengeValues.find? (i, txt)).map fun v => { v with expiresAt := expiry } := by
  rw [Db.refreshValue, Table.find?_modify_self]

theorem find_refreshValue_ne {t : String} {expiry : Time} (hkey : (i, txt) ≠ (id, t)) :
    (db.refreshValue id t expiry).challengeValues.find? (i, txt) =
      db.challengeValues.find? (i, txt) := by
  rw [Db.refreshValue, Table.find?_modify_ne _ _ _ hkey]

theorem insert_added {t : String}
    (hadd : addChallengeValue (db.ensureChallengeState id) now id t = .ok db') :
    (db.dropLapsed now id).challengeValues.insert? ⟨id, t, now + challengeLifetime, now⟩ =
      some db'.challengeValues := by
  obtain ⟨-, db₁, hstored, rfl⟩ := addChallengeValue_ok hadd
  obtain ⟨table, htable, rfl⟩ := insertChallengeValue_ok hstored
  exact htable

theorem value_ensure {x : ChallengeValue} {generation : Nat} {t : String} {r : Nat × Nat}
    (hx : db.challengeValues.find? (i, txt) = some x)
    (h : ensureChallengeValue db now id generation t = .ok (r, db')) :
    ValueAfter i txt x (.ensureChallengeValue id generation t) now db' := by
  obtain ⟨-, -, row, -, -, ⟨v, -, rfl⟩ | ⟨-, hadd⟩⟩ := ensureChallengeValue_ok h
  · by_cases hkey : (i, txt) = (id, t)
    · cases hkey
      refine .ensured rfl (y := { x with expiresAt := now + challengeLifetime }) ?_ rfl
      rw [find_refreshValue_self]
      exact congrArg (Option.map _) hx
    · exact .kept ((find_refreshValue_ne hkey).trans hx)
  · have hinsert := insert_added hadd
    by_cases hkey : (id, t) = (i, txt)
    · cases hkey
      exact .ensured rfl (Table.find?_insert?_self hinsert) rfl
    · have hfind := Table.find?_insert?_ne hinsert hkey
      obtain hkept | ⟨rfl, hlapsed⟩ := find_dropLapsed hx now id
      · exact .kept (hfind.trans hkept)
      · exact .lapsed (decide_eq_true rfl) hlapsed

theorem value_retire {x : ChallengeValue} {operationId : Uuid} {u : Unit}
    (hx : db.challengeValues.find? (i, txt) = some x)
    (h : retire sha256 db now id operationId = .ok (u, db')) :
    ValueAfter i txt x (.retire id operationId) now db' := by
  obtain ⟨-, rfl⟩ | ⟨-, -, hop⟩ := retire_ok h
  · exact .kept hx
  · obtain ⟨t, -, rfl⟩ := insertOperation_ok hop
    obtain ⟨heq, -⟩ | ⟨row, hrow, -, heq⟩ := retireOnce_cases db now id operationId
    · rw [heq]
      exact .kept hx
    · rw [heq]
      by_cases hi : id = i
      · subst hi
        refine .retired (r := row.retire now) ?_ rfl
        exact (Table.find?_modify_self _ _ _ (Installation.retire_installationId now)).trans
          (congrArg (Option.map _) hrow)
      · refine .kept ?_
        show (db.challengeValues.deleteWhere _).find? (i, txt) = _
        have hkey := db.challengeValues.find?_key hx
        rw [Table.find?_deleteWhere, hx]
        refine Option.filter_eq_some_iff.mpr ⟨rfl, ?_⟩
        rw [decide_eq_false fun h => hi (h.symm.trans (Prod.mk.inj hkey).1)]
        rfl

theorem value_after {x : ChallengeValue} (hx : db.challengeValues.find? (i, txt) = some x) :
    ValueAfter i txt x call.op call.now (call.after sha256 db) := by
  have hframe := (call_effect sha256 call db).values
  obtain heq | ⟨reply, -, htx, -⟩ := after_cases sha256 call db
  · rw [heq]
    exact .kept hx
  · generalize call.after sha256 db = db' at htx hframe ⊢
    cases hop : call.op with
    | ensureChallengeValue id generation t =>
      rw [hop] at htx
      obtain ⟨r, htx, -⟩ := answer_ok.mp htx
      exact value_ensure hx htx
    | expireChallengeValuesOf id =>
      rw [hop] at htx
      simp only [StoreOp.transact, answer_total] at htx
      obtain heq | ⟨-, heq⟩ := expireChallengeValuesOf_cases db call.now id
      · rw [htx.2, heq]
        exact .kept hx
      · rw [htx.2, heq]
        obtain hkept | ⟨rfl, hlapsed⟩ := find_dropLapsed hx call.now id
        · exact .kept hkept
        · exact .lapsed (decide_eq_true rfl) hlapsed
    | retire id operationId =>
      rw [hop] at htx
      obtain ⟨u, htx, -⟩ := answer_ok.mp htx
      exact value_retire hx htx
    | _ =>
      refine .kept ?_
      rw [hframe (by rw [hop]; rfl)]
      exact hx

/-! ## The promise -/

/-- A step after an ensure of the value that started at `start`: the installation is not retired, the
promised expiry has not come, and no ensure of the value had started before. -/
structure Orderly (i : Uuid) (txt : String) (start : Time) (e : Event Db Call) : Prop where
  alive : ∀ r, e.dst.installations.find? i = some r → r.state ≠ .retired
  early : e.label.op.dropsLapsed i = true → e.label.now < start + challengeLifetime
  ordered : ∀ generation, e.label.op = .ensureChallengeValue i generation txt → start ≤ e.label.now

/-- The value is stored until the expiry that was promised at least. -/
def HeldUntil (db : Db) (i : Uuid) (txt : String) (expiry : Time) : Prop :=
  ∃ x, db.challengeValues.find? (i, txt) = some x ∧ expiry ≤ x.expiresAt

theorem HeldUntil.step (h : HeldUntil db i txt (start + challengeLifetime))
    (hstep : Orderly i txt start ⟨db, call, call.after sha256 db⟩) :
    HeldUntil (call.after sha256 db) i txt (start + challengeLifetime) := by
  obtain ⟨x, hx, hexpiry⟩ := h
  have hafter : ValueAfter i txt x call.op call.now (call.after sha256 db) := value_after hx
  cases hafter with
  | kept hkept => exact ⟨x, hkept, hexpiry⟩
  | @ensured generation y hop hy hagain =>
    refine ⟨y, hy, ?_⟩
    rw [hagain]
    exact Nat.add_le_add_right (hstep.ordered generation hop) _
  | lapsed hop hlapsed =>
    exact absurd (hexpiry.trans hlapsed) (Nat.not_le.mpr (hstep.early hop))
  | retired hr hretired => exact absurd hretired (hstep.alive _ hr)

theorem HeldUntil.run {later : List (Event Db Call)}
    (h : HeldUntil db i txt (start + challengeLifetime)) (hlater : Run (StoreStep sha256) db later db')
    (hsteps : ∀ e ∈ later, Orderly i txt start e) :
    HeldUntil db' i txt (start + challengeLifetime) := by
  induction hlater with
  | refl => exact h
  | snoc _ hs ih =>
    cases hs
    exact (ih fun e he => hsteps e (List.mem_cons_of_mem _ he)).step (hsteps _ List.mem_cons_self)

theorem heldUntil_of_ensure {generation : Nat} {r : Nat × Nat}
    (h : ensureChallengeValue db now i generation txt = .ok (r, db')) :
    HeldUntil db' i txt (now + challengeLifetime) ∧ r.2 = epochMs (now + challengeLifetime) := by
  constructor
  · obtain ⟨-, -, row, -, -, ⟨v, hv, rfl⟩ | ⟨-, hadd⟩⟩ := ensureChallengeValue_ok h
    · have hfind := (liveValue_eq_some.mp hv).1
      refine ⟨{ v with expiresAt := now + challengeLifetime }, ?_, le_rfl⟩
      rw [find_refreshValue_self]
      exact congrArg (Option.map _) hfind
    · exact ⟨_, Table.find?_insert?_self (insert_added hadd), le_rfl⟩
  · simp only [ensureChallengeValue, bind_eq_ok, Except.ok.injEq, Prod.mk.injEq] at h
    obtain ⟨_, -, _, -, _, -, _, -, _, -, hr, -⟩ := h
    rw [← hr]

theorem epochMs_mono {a b : Time} (h : a ≤ b) : epochMs a ≤ epochMs b :=
  Nat.div_le_div_right (Nat.add_le_add_right h 500)

/-- **The expiry that an ensure answers.** From any database, after an ensure has answered with an
expiry, in every run in which the installation is not retired and no ensure of the value commits that
started before, the value is stored with an expiry that is not earlier and is live at every time before
the one answered. -/
theorem ensured_until_expiry {generation revision expiry : Nat} {db₀ db₁ : Db}
    {later : List (Event Db Call)} (hop : call.op = .ensureChallengeValue i generation txt)
    (hok : call.exec sha256 db₀ = .ok (.challenge revision expiry, db₁))
    (hlater : Run (StoreStep sha256) db₁ later db)
    (hsteps : ∀ e ∈ later, Orderly i txt call.now e) :
    (∃ x, db.challengeValues.find? (i, txt) = some x ∧ expiry ≤ epochMs x.expiresAt) ∧
      ∀ now, epochMs now < expiry → liveValue db now i txt ≠ none := by
  have htx := (exec_ok hok).1
  rw [hop] at htx
  obtain ⟨r, hensure, hreply⟩ := answer_ok.mp htx
  obtain ⟨hstart, hexpiry⟩ := heldUntil_of_ensure hensure
  obtain ⟨x, hx, hle⟩ := hstart.run hlater hsteps
  obtain rfl : r.2 = expiry := (Reply.challenge.inj hreply).2
  rw [hexpiry]
  refine ⟨⟨x, hx, epochMs_mono hle⟩, fun now hnow hnone => ?_⟩
  have hlt : now < x.expiresAt := by
    by_contra hge
    exact absurd (epochMs_mono (hle.trans (Nat.not_lt.mp hge))) (Nat.not_le.mpr hnow)
  rw [liveValue_eq_some.mpr ⟨hx, hlt⟩] at hnone
  cases hnone

/-- An ensure of one value, as any process makes it. -/
def ensureAt (now : Time) : Call :=
  ⟨.default, now, .ensureChallengeValue 7 3 "0123456789012345678901234567890123456789012"⟩

/-- A claimed installation with a challenge credential. -/
def challengedCalls : List Call := ⟨.default, 60, .issueBearer 7 3 "dns_challenge" 0 3600⟩ :: claimedCalls

/-- A second ensure that started after the first leaves the value live before the first expiry. -/
theorem ensured_until_expiry_again :
    liveValue ((ensureAt (seconds 120)).after (fun _ => 0) ((ensureAt (seconds 100)).after (fun _ => 0)
        (runOf (fun _ => 0) challengedCalls).2)) (seconds 399) 7
      "0123456789012345678901234567890123456789012" ≠ none := by
  have hanswer : ((ensureAt (seconds 100)).exec (fun _ => 0) (runOf (fun _ => 0) challengedCalls).2).map
      Prod.fst = .ok (.challenge 1 400000) := by decide +kernel
  have halive : (((ensureAt (seconds 120)).after (fun _ => 0) ((ensureAt (seconds 100)).after
      (fun _ => 0) (runOf (fun _ => 0) challengedCalls).2)).installations.find? 7).all
        (fun r => r.state ≠ .retired) = true := by decide +kernel
  generalize (runOf (fun _ => 0) challengedCalls).2 = db at hanswer halive ⊢
  obtain ⟨db₁, hexec⟩ := map_fst_ok hanswer
  rw [after_of_exec hexec] at halive ⊢
  have hrun : Run (StoreStep fun _ => 0) db₁ [⟨db₁, ensureAt (seconds 120), _⟩] _ := Run.refl.snoc rfl
  refine (ensured_until_expiry rfl hexec hrun fun e he => ?_).2 (seconds 399) (by decide)
  rw [List.mem_singleton.mp he]
  refine ⟨fun r hr => ?_, fun _ => ?_, fun _ _ => ?_⟩
  · have hr : _ = some r := hr
    rw [hr, Option.all_some] at halive
    exact of_decide_eq_true halive
  · show seconds 120 < seconds 100 + challengeLifetime
    decide
  · show seconds 100 ≤ seconds 120
    decide

/-- The second ensure started before the first. -/
def takenBackCalls : List Call :=
  ensureAt (seconds 40) :: ensureAt (seconds 100) :: challengedCalls

/-- The first ensure answers with 400 s and the value is not live at 350 s, although the installation is
not retired. -/
theorem ensured_expiry_taken_back :
    StoreRun (fun _ => 0) (runOf (fun _ => 0) takenBackCalls).1 (runOf (fun _ => 0) takenBackCalls).2 ∧
      ((ensureAt (seconds 100)).exec (fun _ => 0) (runOf (fun _ => 0) challengedCalls).2).map Prod.fst =
        .ok (.challenge 1 400000) ∧
      epochMs (seconds 350) < 400000 ∧
      liveValue (runOf (fun _ => 0) takenBackCalls).2 (seconds 350) 7
        "0123456789012345678901234567890123456789012" = none ∧
      ((runOf (fun _ => 0) takenBackCalls).2.installations.find? 7).map (·.state) = some .dnsReady := by
  refine ⟨storeRun_runOf (fun _ => 0) takenBackCalls, ?_, by decide, ?_, ?_⟩
  · decide +kernel
  · decide +kernel
  · decide +kernel

end BloomRelay.Store
