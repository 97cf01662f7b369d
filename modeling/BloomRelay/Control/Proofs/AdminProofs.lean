import BloomRelay.Control.Admin
import BloomRelay.Store.Proofs.EffectProofs
import BloomRelay.Store.Proofs.FencingProofs
import Mathlib.Logic.Equiv.List

/-!
# What an accepted admin request proves

Every request that `authorize_admin` lets through carries claims that the holder of the installation's
admin key signed for exactly this endpoint, and the same claims are let through once: a nonce is
forgotten only when every claims value accepted with it has expired.
-/

namespace BloomRelay.Control

open Protocol Store Checked

variable {cfg : AdminConfig} {g g' : Api} {l : AdminAction} {r : Nat} {q : AdminRequest}
  {checked : Time} {key : Bytes32}

/-- A step of the API in a run. -/
abbrev AdminEvent := Event Api AdminAction

variable {tr : List AdminEvent}

/-! ## The signature check -/

/-- What a passed check says about the claims. -/
structure Verified (cfg : AdminConfig) (q : AdminRequest) (key : Bytes32) (clock : Time) : Prop where
  scope : q.claims.scope = .surfaceAdmin
  action : q.claims.action = q.body.action
  audience : q.claims.audience = cfg.audience
  alive : nowMs clock < q.claims.expiresAtMs
  near : q.claims.expiresAtMs ≤ nowMs clock + 60000
  digest : ∃ body, cfg.jcsBody q.body = some body ∧
    sha256Hex cfg.crypto body = q.claims.bodySha256
  signature : ∃ message signature, cfg.crypto.decodeSignature q.signature = some signature ∧
    q.claims.signingBytes cfg.crypto = .ok message ∧
    cfg.crypto.verifies key message signature = true

theorem verified_of_checkSignature {clock : Time} (h : checkSignature cfg q key clock = .ok ()) :
    Verified cfg q key clock := by
  simp only [checkSignature, bind_eq_ok, require_eq_ok, found_eq_ok] at h
  obtain ⟨_, -, body, hbody, hverify⟩ := h
  split at hverify
  · rename_i hok
    simp only [AuthClaims.verify, bind_eq_ok, require_eq_ok, found_eq_ok] at hok
    obtain ⟨_, ⟨hscope, haction, haudience⟩, _, ⟨halive, hnear⟩, _, -, _, hdigest, signature,
      hsignature, message, hmessage, hverifies⟩ := hok
    have hcap : latestExpiry (nowMs clock) ≤ nowMs clock + 60000 := Nat.min_le_left _ _
    exact ⟨hscope, haction, haudience, halive, hnear.trans hcap, ⟨body, hbody, hdigest⟩,
      ⟨message, signature, hsignature, hmessage, hverifies⟩⟩
  · cases hverify

/-- Canonical JSON tells claims apart. -/
def JcsInjective (crypto : Crypto) : Prop :=
  ∀ claims claims' json, crypto.jcs claims = some json → crypto.jcs claims' = some json →
    claims = claims'

theorem signingBytes_injective {crypto : Crypto} (hjcs : JcsInjective crypto)
    {claims claims' : AuthClaims} {message : Bytes} (h : claims.signingBytes crypto = .ok message)
    (h' : claims'.signingBytes crypto = .ok message) : claims = claims' := by
  simp only [AuthClaims.signingBytes, bind_eq_ok, found_eq_ok, Except.ok.injEq] at h h'
  obtain ⟨_, -, json, hjson, hmessage⟩ := h
  obtain ⟨_, -, json', hjson', hmessage'⟩ := h'
  have hsame : json = json' := List.append_cancel_left (hmessage.trans hmessage'.symm)
  exact hjcs claims claims' json hjson (hsame ▸ hjson')

/-! ## What an action does -/

/-- How a request gets to where it goes, when its nonce is not involved. -/
inductive RequestNext (cfg : AdminConfig) (g : Api) (r : Nat) : AdminAction → AdminPc → Prop where
  | arrived (q : AdminRequest) (hpre : precheck q = .ok ()) :
      RequestNext cfg g r (.arrives r q) (.lookup q)
  | keyed (q : AdminRequest) (key : Bytes32) (hpc : g.requests r = some (.lookup q))
      (hkey : adminPublicKey g.db q.claims.installationId = some key) :
      RequestNext cfg g r (.lookup r) (.verify q key)
  | checked (q : AdminRequest) (key : Bytes32) (hpc : g.requests r = some (.verify q key))
      (hcheck : checkSignature cfg q key g.clock = .ok ()) :
      RequestNext cfg g r (.verify r) (.nonce q g.clock)
  | answered (l : AdminAction) (answer : Except ApiError Nat) : RequestNext cfg g r l (.done answer)

/-- The request is accepted: its nonce was new, and is recorded now. -/
structure Accepted (cfg : AdminConfig) (g g' : Api) (r : Nat) (now : Time) (q : AdminRequest)
    (checked : Time) : Prop where
  pc : g.requests r = some (.nonce q checked)
  after_check : checked ≤ now
  inserted : ∃ nonces, g.db.usedNonces.insert? ⟨q.claims.installationId, q.claims.nonce,
    now + minutes 5⟩ = some nonces ∧ g'.db = { g.db with usedNonces := nonces }
  moved : g' = { g with db := g'.db }.setRequest r (.perform q)

/-- What an action does. -/
inductive AdminMoves (cfg : AdminConfig) (g g' : Api) : AdminAction → Prop where
  | tick (elapsed : Nat) (hg : g' = { g with clock := g.clock + elapsed }) :
      AdminMoves cfg g g' (.tick elapsed)
  | sign (key : Bytes32) (claims : AuthClaims)
      (hg : g' = { g with signed := (key, claims) :: g.signed }) :
      AdminMoves cfg g g' (.sign key claims)
  /-- A store call that consumes no nonce, by another process or by an accepted request. -/
  | store (l : AdminAction) (call : Call) (hnow : call.now ≤ g.clock)
      (hop : consumesNonce call.op = false) (hdb : g'.db = call.after cfg.crypto.sha256 g.db)
      (hclock : g'.clock = g.clock) (hsigned : g'.signed = g.signed)
      (hrequests : ∀ r pc, g'.requests r = some pc → g.requests r = some pc ∨ ∃ a, pc = .done a) :
      AdminMoves cfg g g' l
  | request (l : AdminAction) (r : Nat) (pc : AdminPc) (hnext : RequestNext cfg g r l pc)
      (hg : g' = g.setRequest r pc) : AdminMoves cfg g g' l
  | accept (r : Nat) (now : Time) (q : AdminRequest) (checked : Time)
      (haccept : Accepted cfg g g' r now q checked) : AdminMoves cfg g g' (.nonce r now)

theorem setRequest_requests (g : Api) (r r' : Nat) (pc : AdminPc) :
    (g.setRequest r pc).requests r' = if r' = r then some pc else g.requests r' := by
  by_cases hr : r' = r
  · simp [Api.setRequest, hr]
  · simp [Api.setRequest, hr]

/-- A fresh nonce is recorded for five minutes. -/
theorem nonceCall_ok {now : Time} {db db' : Db}
    (h : (nonceCall cfg now q).exec cfg.crypto.sha256 db = .ok (.flag true, db')) :
    ∃ nonces, db.usedNonces.insert? ⟨q.claims.installationId, q.claims.nonce, now + minutes 5⟩ =
      some nonces ∧ db' = { db with usedNonces := nonces } := by
  obtain ⟨htx, -⟩ := exec_ok h
  obtain ⟨b, hconsume, hflag⟩ := answer_ok.mp htx
  rcases consumeNonce_ok hconsume with ⟨rfl, -⟩ | ⟨nonces, -, hinsert, hdb⟩
  · cases hflag
  · exact ⟨nonces, hinsert, hdb⟩

/-- None of the operations of the four endpoints consumes a nonce. -/
theorem consumesNonce_adminOp {op : StoreOp} (h : adminOp q = .ok (.inr op)) :
    consumesNonce op = false := by
  unfold adminOp at h
  split at h
  · simp only [bind_eq_ok, found_eq_ok, Except.ok.injEq, Sum.inr.injEq] at h
    obtain ⟨bytes, -, hash, -, rfl⟩ := h
    rfl
  · cases h
    rfl
  · cases h
  · cases h
    rfl

theorem performRequest_db (cfg : AdminConfig) (db : Db) (now : Time) (q : AdminRequest) :
    (performRequest cfg db now q).1 = db ∨
      ∃ op, consumesNonce op = false ∧
        (performRequest cfg db now q).1 = (⟨cfg.store, now, op⟩ : Call).after cfg.crypto.sha256 db := by
  unfold performRequest
  split
  · exact .inl rfl
  · exact .inl rfl
  · rename_i op hop
    refine .inr ⟨op, consumesNonce_adminOp hop, ?_⟩
    unfold Call.after
    cases (⟨cfg.store, now, op⟩ : Call).exec cfg.crypto.sha256 db with
    | ok result => rfl
    | error e => rfl

theorem moves_of_step (h : AdminStep cfg g l g') : AdminMoves cfg g g' l := by
  unfold AdminStep at h
  cases l with
  | tick elapsed =>
    cases h
    exact .tick elapsed rfl
  | sign key claims =>
    cases h
    exact .sign key claims rfl
  | store call =>
    simp only [Api.step] at h
    split at h
    · rename_i hguard
      cases h
      exact .store _ call hguard.1 hguard.2 rfl rfl rfl fun r pc hpc => .inl hpc
    · cases h
  | arrives r q =>
    simp only [Api.step] at h
    split at h
    · split at h
      · rename_i hpre
        cases h
        exact .request _ r _ (.arrived q hpre) rfl
      · cases h
        exact .request _ r _ (.answered _ _) rfl
    · cases h
  | lookup r =>
    simp only [Api.step] at h
    split at h
    · rename_i q hpc
      split at h
      · cases h
        exact .request _ r _ (.answered _ _) rfl
      · rename_i key hkey
        cases h
        exact .request _ r _ (.keyed q key hpc hkey) rfl
    · cases h
  | verify r =>
    simp only [Api.step] at h
    split at h
    · rename_i q key hpc
      split at h
      · rename_i hcheck
        cases h
        exact .request _ r _ (.checked q key hpc hcheck) rfl
      · cases h
        exact .request _ r _ (.answered _ _) rfl
    · cases h
  | nonce r now =>
    simp only [Api.step] at h
    split at h
    · rename_i q checked hpc
      split at h
      · rename_i htimes
        split at h
        · rename_i db hexec
          cases h
          obtain ⟨nonces, hinsert, hdb⟩ := nonceCall_ok hexec
          exact .accept r now q checked ⟨hpc, htimes.1, ⟨nonces, hinsert, hdb⟩, rfl⟩
        · cases h
          exact .request _ r _ (.answered _ _) rfl
        · cases h
          exact .request _ r _ (.answered _ _) rfl
      · cases h
    · cases h
  | perform r now =>
    simp only [Api.step] at h
    split at h
    · rename_i q hpc
      split at h
      · rename_i hnow
        cases h
        rcases performRequest_db cfg g.db now q with hdb | ⟨op, hop, hdb⟩
        · refine .request _ r _ (.answered _ (performRequest cfg g.db now q).2) ?_
          simp only [hdb, Api.setRequest]
        · refine .store _ ⟨cfg.store, now, op⟩ hnow hop hdb rfl rfl ?_
          intro r' pc hpc'
          rw [setRequest_requests] at hpc'
          by_cases hr : r' = r
          · rw [if_pos hr, Option.some.injEq] at hpc'
            exact .inr ⟨_, hpc'.symm⟩
          · rw [if_neg hr] at hpc'
            exact .inl hpc'
      · cases h
    · cases h
  | fail r =>
    simp only [Api.step] at h
    split at h
    · cases h
    · cases h
    · cases h
      exact .request _ r _ (.answered _ _) rfl

/-! ## What is kept -/

/-- The admin key of an installation never changes. -/
theorem adminPublicKey_after {sha256 : Bytes → Bytes32} {call : Call} {db : Db} {i : Uuid}
    (h : adminPublicKey db i = some key) : adminPublicKey (call.after sha256 db) i = some key := by
  obtain ⟨row, hrow, hkey⟩ := Option.map_eq_some_iff.1 h
  have hlife : LifeStep i (db.view i) (call.change sha256 db i) ((call.after sha256 db).view i) :=
    life_step call db i
  obtain ⟨row', hrow', -, hkey'⟩ := hlife.named hrow
  exact Option.map_eq_some_iff.2 ⟨row', hrow', hkey'.trans hkey⟩

/-- The parts of the state that only grow. -/
structure Grows (g g' : Api) : Prop where
  key : ∀ i key, adminPublicKey g.db i = some key → adminPublicKey g'.db i = some key
  signed : ∀ x ∈ g.signed, x ∈ g'.signed
  clock : g.clock ≤ g'.clock

theorem AdminMoves.grows (h : AdminMoves cfg g g' l) : Grows g g' := by
  cases h with
  | tick elapsed hg =>
    subst hg
    exact ⟨fun _ _ hkey => hkey, fun _ hx => hx, Nat.le_add_right _ _⟩
  | sign key claims hg =>
    subst hg
    exact ⟨fun _ _ hkey => hkey, fun _ hx => List.mem_cons_of_mem _ hx, Nat.le_refl _⟩
  | store _ call hnow hop hdb hclock hsigned hrequests =>
    refine ⟨fun i key hkey => ?_, fun x hx => hsigned ▸ hx, hclock ▸ Nat.le_refl _⟩
    rw [hdb]
    exact adminPublicKey_after hkey
  | request _ r pc hnext hg =>
    subst hg
    exact ⟨fun _ _ hkey => hkey, fun _ hx => hx, Nat.le_refl _⟩
  | accept r now q checked haccept =>
    obtain ⟨nonces, -, hdb⟩ := haccept.inserted
    rw [haccept.moved]
    refine ⟨fun i key hkey => ?_, fun _ hx => hx, Nat.le_refl _⟩
    show adminPublicKey g'.db i = some key
    rw [hdb]
    exact hkey

/-! ## Requests -/

/-- The installation a body names. -/
def AdminBody.installationId? : AdminBody → Option Uuid
  | .status id | .retire id => some id
  | _ => none

/-- A body that names an installation names the one of the claims. -/
def Bound (q : AdminRequest) : Prop :=
  ∀ id, q.body.installationId? = some id → id = q.claims.installationId

theorem bound_of_precheck (h : precheck q = .ok ()) : Bound q := by
  intro id hid
  unfold precheck at h
  split at h
  · rename_i hbody
    rw [hbody] at hid
    cases hid
  · rename_i hbody
    rw [hbody] at hid
    cases hid
  · rename_i id' hbody
    rw [hbody] at hid
    obtain rfl : id' = id := Option.some.inj hid
    exact require_eq_ok.1 h
  · rename_i id' hbody
    rw [hbody] at hid
    obtain rfl : id' = id := Option.some.inj hid
    exact require_eq_ok.1 h

/-- The holder of the installation's admin key signed the claims. -/
def Signed (g : Api) (q : AdminRequest) (key : Bytes32) : Prop :=
  adminPublicKey g.db q.claims.installationId = some key ∧ (key, q.claims) ∈ g.signed

/-- What is known of a request at its program counter. -/
def RequestEvidence (cfg : AdminConfig) (g : Api) : AdminPc → Prop
  | .lookup q => Bound q
  | .verify q key => Bound q ∧ adminPublicKey g.db q.claims.installationId = some key
  | .nonce q checked => Bound q ∧ ∃ key, Signed g q key ∧ Verified cfg q key checked
  | .perform _ | .done _ => True

theorem RequestEvidence.grow {pc : AdminPc} (h : RequestEvidence cfg g pc) (hgrow : Grows g g') :
    RequestEvidence cfg g' pc := by
  cases pc with
  | lookup q => exact h
  | verify q key => exact ⟨h.1, hgrow.key _ _ h.2⟩
  | nonce q checked =>
    obtain ⟨hbound, key, ⟨hkey, hsigned⟩, hverified⟩ := h
    exact ⟨hbound, key, ⟨hgrow.key _ _ hkey, hgrow.signed _ hsigned⟩, hverified⟩
  | perform q => trivial
  | done answer => trivial

/-- What the surroundings of a step are assumed to do: a signature that verifies is one the holder of
the key made, and a nonce is inserted within four minutes of the check. -/
structure Assumed (cfg : AdminConfig) (e : AdminEvent) : Prop where
  unforged : ∀ r q key message signature, e.label = .verify r →
    e.src.requests r = some (.verify q key) → q.claims.signingBytes cfg.crypto = .ok message →
    cfg.crypto.decodeSignature q.signature = some signature →
    cfg.crypto.verifies key message signature = true →
    ∃ claims, (key, claims) ∈ e.src.signed ∧ claims.signingBytes cfg.crypto = .ok message
  prompt : ∀ r now q checked, e.label = .nonce r now → e.src.requests r = some (.nonce q checked) →
    e.src.clock < checked + minutes 4

theorem RequestNext.evidence {pc : AdminPc} (hjcs : JcsInjective cfg.crypto)
    (hnext : RequestNext cfg g r l pc) (hassume : Assumed cfg ⟨g, l, g'⟩)
    (h : ∀ r pc, g.requests r = some pc → RequestEvidence cfg g pc) : RequestEvidence cfg g pc := by
  cases hnext with
  | arrived q hpre => exact bound_of_precheck hpre
  | keyed q key hpc hkey => exact ⟨h r _ hpc, hkey⟩
  | checked q key hpc hcheck =>
    obtain ⟨hbound, hkey⟩ := h r _ hpc
    have hverified : Verified cfg q key g.clock := verified_of_checkSignature hcheck
    obtain ⟨message, signature, hsignature, hmessage, hverifies⟩ := hverified.signature
    obtain ⟨claims, hsigned, hbytes⟩ :=
      hassume.unforged r q key message signature rfl hpc hmessage hsignature hverifies
    have hclaims : claims = q.claims := signingBytes_injective hjcs hbytes hmessage
    exact ⟨hbound, key, ⟨hkey, hclaims ▸ hsigned⟩, hverified⟩
  | answered answer => trivial

def RequestInv (cfg : AdminConfig) (g : Api) : Prop :=
  ∀ r pc, g.requests r = some pc → RequestEvidence cfg g pc

theorem RequestInv.step (hjcs : JcsInjective cfg.crypto) (h : RequestInv cfg g)
    (hm : AdminMoves cfg g g' l) (hassume : Assumed cfg ⟨g, l, g'⟩) : RequestInv cfg g' := by
  have hgrow : Grows g g' := hm.grows
  have hkept : ∀ r pc, g.requests r = some pc → RequestEvidence cfg g' pc :=
    fun r pc hpc => (h r pc hpc).grow hgrow
  intro r' pc' hpc'
  cases hm with
  | tick elapsed hg =>
    subst hg
    exact hkept r' pc' hpc'
  | sign key claims hg =>
    subst hg
    exact hkept r' pc' hpc'
  | store _ call hnow hop hdb hclock hsigned hrequests =>
    rcases hrequests r' pc' hpc' with hpc | ⟨answer, rfl⟩
    · exact hkept r' pc' hpc
    · trivial
  | request _ r pc hnext hg =>
    have hevidence := (hnext.evidence hjcs hassume h).grow hgrow
    rw [hg, setRequest_requests] at hpc'
    by_cases hr : r' = r
    · rw [if_pos hr, Option.some.injEq] at hpc'
      exact hpc' ▸ hevidence
    · rw [if_neg hr] at hpc'
      exact hkept r' pc' hpc'
  | accept r now q checked haccept =>
    rw [haccept.moved, setRequest_requests] at hpc'
    by_cases hr : r' = r
    · rw [if_pos hr, Option.some.injEq] at hpc'
      subst hpc'
      trivial
    · rw [if_neg hr] at hpc'
      exact hkept r' pc' hpc'

theorem requestInv_of_run (hjcs : JcsInjective cfg.crypto) {db : Db} {clock : Time}
    {signed : List (Bytes32 × AuthClaims)}
    (h : Run (AdminStep cfg) (Api.start db clock signed) tr g)
    (hassume : ∀ e ∈ tr, Assumed cfg e) : RequestInv cfg g := by
  induction h with
  | refl =>
    intro r pc hpc
    cases hpc
  | snoc _ hs ih =>
    have hbefore := ih fun e he => hassume e (List.mem_cons_of_mem _ he)
    exact hbefore.step hjcs (moves_of_step hs) (hassume _ List.mem_cons_self)

/-! ## Nonces -/

/-- The step accepts request `q`, whose signature was checked at `checked`. -/
def Accepts (e : AdminEvent) (q : AdminRequest) (checked : Time) : Prop :=
  ∃ r now, e.label = .nonce r now ∧ e.src.requests r = some (.nonce q checked) ∧
    e.dst.requests r = some (.perform q)

theorem accepted_of_accepts (hm : AdminMoves cfg g g' l) (h : Accepts ⟨g, l, g'⟩ q checked) :
    ∃ r now, l = .nonce r now ∧ Accepted cfg g g' r now q checked := by
  obtain ⟨r, now, rfl, hpc, hpc'⟩ := h
  refine ⟨r, now, rfl, ?_⟩
  -- only an accepted nonce leads from `nonce` to `perform`
  have hne : g'.requests r ≠ g.requests r := by
    rw [show g'.requests r = some (.perform q) from hpc', show g.requests r = some (.nonce q checked) from hpc]
    intro heq
    cases heq
  cases hm with
  | store _ call hnow hop hdb hclock hsigned hrequests =>
    rcases hrequests r _ hpc' with hsame | ⟨answer, hdone⟩
    · exact absurd (hpc'.trans hsame.symm) hne
    · cases hdone
  | request _ r' pc hnext hg =>
    cases hnext with
    | answered answer =>
      have hpc'' : g'.requests r = some (.perform q) := hpc'
      rw [hg, setRequest_requests] at hpc''
      by_cases hr : r = r'
      · rw [if_pos hr] at hpc''
        cases hpc''
      · rw [hg, setRequest_requests, if_neg hr] at hne
        exact absurd rfl hne
  | accept _ _ q' checked' haccept =>
    have hq : AdminPc.nonce q' checked' = .nonce q checked :=
      Option.some.inj (haccept.pc.symm.trans hpc)
    cases hq
    exact haccept

/-- Pruning removes only nonces that have expired. -/
theorem find?_pruneNonces {db : Db} {now : Time} {limit : Nat} {k : Uuid × String} {n : UsedNonce}
    (h : db.usedNonces.find? k = some n) :
    (pruneNonces db now limit).2.usedNonces.find? k = some n ∨ n.expiresAt < now := by
  by_cases hexp : n.expiresAt < now
  · exact .inr hexp
  · refine .inl ?_
    simp only [pruneNonces]
    rw [Table.find?_deleteWhere, h]
    refine Option.filter_eq_some_iff.2 ⟨rfl, ?_⟩
    -- a pruned row with this key would be this row
    by_contra hpruned
    simp only [Bool.not_eq_true', Bool.not_eq_false, List.contains_iff_mem, List.mem_map] at hpruned
    obtain ⟨m, hm, hkey⟩ := hpruned
    have hfilter := List.mem_mergeSort.1 (List.mem_of_mem_take hm)
    obtain ⟨hmem, hlapsed⟩ := List.mem_filter.1 hfilter
    have hsame : m = n := db.usedNonces.key_inj hmem (db.usedNonces.find?_mem h) hkey
    exact hexp (hsame ▸ of_decide_eq_true hlapsed)

/-- A store call that consumes no nonce keeps every nonce that has not expired. -/
theorem nonce_after (sha256 : Bytes → Bytes32) {call : Call} {db : Db} {k : Uuid × String}
    {n : UsedNonce} (hop : consumesNonce call.op = false) (h : db.usedNonces.find? k = some n) :
    (call.after sha256 db).usedNonces.find? k = some n ∨ n.expiresAt < call.now := by
  rcases after_cases sha256 call db with heq | ⟨reply, -, htx, -⟩
  · rw [heq]
    exact .inl h
  · by_cases hwrites : call.op.writesNonces = true
    · obtain ⟨limit, hlimit⟩ : ∃ limit, call.op = .pruneNonces limit := by
        cases hcall : call.op with
        | pruneNonces limit => exact ⟨limit, rfl⟩
        | consumeNonce id nonce =>
          rw [hcall] at hop
          cases hop
        | _ =>
          rw [hcall] at hwrites
          cases hwrites
      rw [hlimit] at htx
      simp only [StoreOp.transact] at htx
      obtain ⟨count, hprune, -⟩ := answer_ok.mp htx
      have hdb : (pruneNonces db call.now limit).2 = call.after sha256 db :=
        congrArg Prod.snd (Except.ok.inj hprune)
      rw [← hdb]
      exact find?_pruneNonces h
    · have hsame := (transact_effect htx).nonces (eq_false_of_ne_true hwrites)
      rw [hsame]
      exact .inl h

/-- The nonce is recorded for five minutes from the check on, or that time is over. -/
def Remembered (g : Api) (q : AdminRequest) (checked : Time) : Prop :=
  (∃ n, g.db.usedNonces.find? (q.claims.installationId, q.claims.nonce) = some n ∧
    checked + minutes 5 ≤ n.expiresAt) ∨ checked + minutes 5 < g.clock

theorem Remembered.step (h : Remembered g q checked) (hm : AdminMoves cfg g g' l) :
    Remembered g' q checked := by
  have hgrow : Grows g g' := hm.grows
  rcases h with ⟨n, hfind, hexp⟩ | hover
  · cases hm with
    | tick elapsed hg =>
      subst hg
      exact .inl ⟨n, hfind, hexp⟩
    | sign key claims hg =>
      subst hg
      exact .inl ⟨n, hfind, hexp⟩
    | store _ call hnow hop hdb hclock hsigned hrequests =>
      rcases nonce_after cfg.crypto.sha256 hop hfind with hkept | hlapsed
      · exact .inl ⟨n, hdb ▸ hkept, hexp⟩
      · refine .inr ?_
        rw [hclock]
        exact Nat.lt_of_le_of_lt hexp (Nat.lt_of_lt_of_le hlapsed hnow)
    | request _ r pc hnext hg =>
      subst hg
      exact .inl ⟨n, hfind, hexp⟩
    | accept r now q' checked' haccept =>
      obtain ⟨nonces, hinsert, hdb⟩ := haccept.inserted
      refine .inl ⟨n, ?_, hexp⟩
      rw [hdb]
      have hne : UsedNonce.key ⟨q'.claims.installationId, q'.claims.nonce, now + minutes 5⟩ ≠
          (q.claims.installationId, q.claims.nonce) := by
        intro hkey
        have hfree := (Table.insert?_eq_some_iff _).1 hinsert
        rw [hkey, hfind] at hfree
        cases hfree.1
      exact (Table.find?_insert?_ne hinsert hne).trans hfind
  · exact .inr (Nat.lt_of_lt_of_le hover hgrow.clock)

theorem Accepted.remembered {now : Time} (h : Accepted cfg g g' r now q checked) :
    Remembered g' q checked := by
  obtain ⟨nonces, hinsert, hdb⟩ := h.inserted
  have hfind : g'.db.usedNonces.find? (q.claims.installationId, q.claims.nonce) =
      some ⟨q.claims.installationId, q.claims.nonce, now + minutes 5⟩ := by
    rw [hdb]
    exact Table.find?_insert?_self hinsert
  exact .inl ⟨_, hfind, Nat.add_le_add_right h.after_check _⟩

/-- Claims checked more than a minute later expire later. -/
theorem expiry_lt {checked checked' clock expires expires' : Nat}
    (hover : checked + minutes 5 < clock) (hprompt : clock < checked' + minutes 4)
    (hnear : expires ≤ nowMs checked + 60000) (halive : nowMs checked' < expires') :
    expires < expires' := by
  unfold nowMs at hnear halive
  unfold minutes seconds at hover hprompt
  omega

/-- The accepted requests of a run. -/
structure NonceInv (tr : List AdminEvent) (g : Api) : Prop where
  remembered : ∀ e ∈ tr, ∀ q checked, Accepts e q checked →
    Remembered g q checked ∧ q.claims.expiresAtMs ≤ nowMs checked + 60000
  later : tr.Pairwise fun e e' => ∀ q checked q' checked', Accepts e q checked →
    Accepts e' q' checked' → q'.claims.installationId = q.claims.installationId →
    q'.claims.nonce = q.claims.nonce → q'.claims.expiresAtMs < q.claims.expiresAtMs

theorem NonceInv.step (h : NonceInv tr g) (hrequests : RequestInv cfg g)
    (hm : AdminMoves cfg g g' l) (hassume : Assumed cfg ⟨g, l, g'⟩) :
    NonceInv (⟨g, l, g'⟩ :: tr) g' := by
  constructor
  · intro e he q checked haccepts
    rcases List.mem_cons.1 he with rfl | he
    · obtain ⟨r, now, -, haccept⟩ := accepted_of_accepts hm haccepts
      obtain ⟨-, key, -, hverified⟩ := hrequests r _ haccept.pc
      exact ⟨haccept.remembered, hverified.near⟩
    · obtain ⟨hremembered, hnear⟩ := h.remembered e he q checked haccepts
      exact ⟨hremembered.step hm, hnear⟩
  · refine List.pairwise_cons.2 ⟨?_, h.later⟩
    intro e he q checked q' checked' haccepts haccepts' hid hnonce
    obtain ⟨r, now, rfl, haccept⟩ := accepted_of_accepts hm haccepts
    obtain ⟨-, key, -, hverified⟩ := hrequests r _ haccept.pc
    obtain ⟨hremembered, hnear⟩ := h.remembered e he q' checked' haccepts'
    -- the nonce was free, so the first acceptance is more than five minutes old
    have hover : checked' + minutes 5 < g.clock := by
      rcases hremembered with ⟨n, hfind, -⟩ | hover
      · obtain ⟨nonces, hinsert, -⟩ := haccept.inserted
        have hfree := ((Table.insert?_eq_some_iff _).1 hinsert).1
        rw [hid, hnonce] at hfind
        exact absurd (hfree.symm.trans hfind) nofun
      · exact hover
    have hprompt : g.clock < checked + minutes 4 := hassume.prompt r now q checked rfl haccept.pc
    exact expiry_lt hover hprompt hnear hverified.alive

theorem nonceInv_of_run (hjcs : JcsInjective cfg.crypto) {db : Db} {clock : Time}
    {signed : List (Bytes32 × AuthClaims)}
    (h : Run (AdminStep cfg) (Api.start db clock signed) tr g)
    (hassume : ∀ e ∈ tr, Assumed cfg e) : NonceInv tr g := by
  induction h with
  | refl => exact ⟨fun _ he => absurd he List.not_mem_nil, .nil⟩
  | snoc hbefore hs ih =>
    have hassume' := fun e he => hassume e (List.mem_cons_of_mem _ he)
    have hrequests := requestInv_of_run hjcs hbefore hassume'
    exact (ih hassume').step hrequests (moves_of_step hs) (hassume _ List.mem_cons_self)

/-! ## The main result -/

/-- What stands behind an accepted request. -/
structure Agrees (cfg : AdminConfig) (g : Api) (q : AdminRequest) : Prop where
  signed : ∃ key, Signed g q key
  scope : q.claims.scope = .surfaceAdmin
  action : q.claims.action = q.body.action
  audience : q.claims.audience = cfg.audience
  digest : ∃ body, cfg.jcsBody q.body = some body ∧
    sha256Hex cfg.crypto body = q.claims.bodySha256
  bound : Bound q

/-- Every accepted request agrees with claims that the holder of the installation's admin key signed,
and no claims are accepted twice: a nonce is accepted again only in claims that expire later. -/
theorem admin_agreement (hjcs : JcsInjective cfg.crypto) {db : Db} {clock : Time}
    {signed : List (Bytes32 × AuthClaims)}
    (h : Run (AdminStep cfg) (Api.start db clock signed) tr g)
    (hassume : ∀ e ∈ tr, Assumed cfg e) :
    (∀ e ∈ tr, ∀ q checked, Accepts e q checked → Agrees cfg e.src q) ∧
    tr.Pairwise fun e e' => ∀ q checked q' checked', Accepts e q checked →
      Accepts e' q' checked' → q'.claims ≠ q.claims ∧
        (q'.claims.installationId = q.claims.installationId →
          q'.claims.nonce = q.claims.nonce → q'.claims.expiresAtMs < q.claims.expiresAtMs) := by
  constructor
  · intro e he q checked haccepts
    obtain ⟨later, earlier, rfl⟩ := List.append_of_mem he
    obtain ⟨hbefore, hstep, -⟩ := h.split
    have hrequests : RequestInv cfg e.src := by
      refine requestInv_of_run hjcs hbefore fun e' he' => hassume e' ?_
      exact List.mem_append_right _ (List.mem_cons_of_mem _ he')
    obtain ⟨r, now, -, haccept⟩ := accepted_of_accepts (moves_of_step hstep) haccepts
    obtain ⟨hbound, key, hsigned, hverified⟩ := hrequests r _ haccept.pc
    exact ⟨⟨key, hsigned⟩, hverified.scope, hverified.action, hverified.audience, hverified.digest,
      hbound⟩
  · have hinv : NonceInv tr g := nonceInv_of_run hjcs h hassume
    refine hinv.later.imp fun {e e'} hlater q checked q' checked' haccepts haccepts' => ?_
    have hexpiry := hlater q checked q' checked' haccepts haccepts'
    refine ⟨fun hsame => ?_, hexpiry⟩
    rw [hsame] at hexpiry
    exact absurd (hexpiry rfl rfl) (Nat.lt_irrefl _)

/-! ## A nonce that is signed twice -/

def scopeCode : Scope → Nat
  | .surfaceAdmin => 0
  | .tunnel => 1
  | .dnsChallenge => 2

def actionCode : Action → Nat
  | .enroll => 0
  | .issueCredential => 1
  | .registerAcmeAccount => 2
  | .installationStatus => 3
  | .retireInstallation => 4

/-- The fields of claims as numbers. -/
def claimFields (claims : AuthClaims) : List (List Nat) :=
  [[claims.version, claims.installationId.toNat, scopeCode claims.scope, actionCode claims.action,
      claims.generation, claims.operationId.toNat, claims.expiresAtMs],
    claims.audience.toList.map Char.toNat, claims.nonce.toList.map Char.toNat,
    claims.bodySha256.toList.map Char.toNat]

theorem scopeCode_injective : Function.Injective scopeCode := by
  intro a b h
  cases a <;> cases b <;> first | rfl | cases h

theorem actionCode_injective : Function.Injective actionCode := by
  intro a b h
  cases a <;> cases b <;> first | rfl | cases h

theorem text_injective : Function.Injective fun s : String => s.toList.map Char.toNat := by
  intro s t h
  have hchars : s.toList = t.toList :=
    List.map_injective_iff.2 (fun a b hab => Char.toNat_inj.1 hab) h
  exact String.toList_inj.1 hchars

theorem claimFields_injective : Function.Injective claimFields := by
  intro c c' h
  simp only [claimFields, List.cons.injEq, and_true] at h
  obtain ⟨⟨hversion, hid, hscope, haction, hgeneration, hoperation, hexpires⟩, haudience, hnonce,
    hbody⟩ := h
  cases c
  cases c'
  congr 1
  · exact BitVec.eq_of_toNat_eq hid
  · exact scopeCode_injective hscope
  · exact actionCode_injective haction
  · exact text_injective haudience
  · exact BitVec.eq_of_toNat_eq hoperation
  · exact text_injective hnonce
  · exact text_injective hbody

/-- Primitives under which every signature verifies; the holders sign what is submitted below. -/
def replayCrypto : Crypto where
  sha256 := fun _ => 0
  jcs := fun claims => some (List.replicate (Encodable.encode (claimFields claims)) 0)
  verifyingKey := fun _ => true
  decodeSignature := fun _ => some []
  verifies := fun _ _ _ => true

theorem replayCrypto_jcsInjective : JcsInjective replayCrypto := by
  intro c c' json h h'
  have hsame := congrArg List.length (Option.some.inj (h.trans h'.symm))
  rw [List.length_replicate, List.length_replicate] at hsame
  exact claimFields_injective (Encodable.encode_injective hsame)

def replayConfig : AdminConfig := ⟨replayCrypto, fun _ => some [], .default, "relay"⟩

/-- A status request for installation 7, always with the same nonce. -/
def statusRequest (expiresAtMs : Nat) : AdminRequest where
  claims := ⟨1, 7, .surfaceAdmin, .installationStatus, 1, "relay", 9, "0123456789abcdef", expiresAtMs,
    sha256Hex replayCrypto []⟩
  body := .status 7
  signature := ""

def replayStart : Api := Api.start (runOf (fun _ => 0) claimedCalls).2 0 []

/-- The holder of key 5 signs a request, and it is submitted. -/
def submitActions (r expiresAtMs : Nat) : List AdminAction :=
  [.sign 5 (statusRequest expiresAtMs).claims, .arrives r (statusRequest expiresAtMs), .lookup r]

/-- Six minutes pass, and expired nonces are pruned. -/
def pruneActions : List AdminAction :=
  [.tick (minutes 6), .store ⟨.default, minutes 6, .pruneNonces 1000⟩]

/-- An action that neither checks a signature nor inserts a nonce. -/
def AdminAction.calm : AdminAction → Bool
  | .verify _ | .nonce _ _ => false
  | _ => true

theorem assumed_of_calm {e : AdminEvent} (h : e.label.calm = true) : Assumed cfg e := by
  constructor
  · intro r q key message signature hl
    rw [hl] at h
    cases h
  · intro r now q checked hl
    rw [hl] at h
    cases h

theorem assumed_of_verify (hpc : g.requests r = some (.verify q key))
    (hsigned : (key, q.claims) ∈ g.signed) : Assumed cfg ⟨g, .verify r, g'⟩ := by
  constructor
  · intro r' q' key' message signature hl hpc' hmessage _ _
    cases hl
    have hq : AdminPc.verify q key = .verify q' key' := Option.some.inj (hpc.symm.trans hpc')
    cases hq
    exact ⟨q.claims, hsigned, hmessage⟩
  · intro r' now q' checked' hl
    cases hl

theorem assumed_of_nonce {now : Time} (hpc : g.requests r = some (.nonce q checked))
    (hclock : g.clock < checked + minutes 4) : Assumed cfg ⟨g, .nonce r now, g'⟩ := by
  constructor
  · intro r' q' key' message signature hl
    cases hl
  · intro r' now' q' checked' hl hpc'
    cases hl
    have hq : AdminPc.nonce q checked = .nonce q' checked' := Option.some.inj (hpc.symm.trans hpc')
    cases hq
    exact hclock

/-- A run goes on with calm actions, a check and an accepted nonce. -/
theorem extend_accepted {start g₀ g₁ g₂ g₃ : Api} {actions : List AdminAction} {now : Time}
    (h : Run (AdminStep cfg) start tr g₀) (hassume : ∀ e ∈ tr, Assumed cfg e)
    (hplay : Run.play (Api.step cfg) g₀ actions = some g₁) (hcalm : ∀ a ∈ actions, a.calm = true)
    (hpc : g₁.requests r = some (.verify q key)) (hsigned : (key, q.claims) ∈ g₁.signed)
    (hverify : g₁.step cfg (.verify r) = some g₂) (hpc₂ : g₂.requests r = some (.nonce q checked))
    (hclock : g₂.clock < checked + minutes 4)
    (hnonce : g₂.step cfg (.nonce r now) = some g₃) :
    ∃ middle, Run (AdminStep cfg) start (⟨g₂, .nonce r now, g₃⟩ :: (middle ++ tr)) g₃ ∧
      ∀ e ∈ (⟨g₂, .nonce r now, g₃⟩ :: (middle ++ tr) : List AdminEvent), Assumed cfg e := by
  obtain ⟨played, hrun, hlabels⟩ := Run.of_play hplay
  have hwhole : Run (AdminStep cfg) start (played ++ tr) g₁ := h.trans hrun
  refine ⟨⟨g₁, .verify r, g₂⟩ :: played, (hwhole.snoc hverify).snoc hnonce, ?_⟩
  intro e he
  rcases List.mem_cons.1 he with rfl | he
  · exact assumed_of_nonce hpc₂ hclock
  · rcases List.mem_append.1 he with he | he
    · rcases List.mem_cons.1 he with rfl | he
      · exact assumed_of_verify hpc hsigned
      · exact assumed_of_calm (hcalm _ (hlabels e he))
    · exact hassume e he

/-- What is seen of a request from its check to its answer. -/
structure Exchange where
  submitted : Option AdminPc
  signed : Option (Bytes32 × AuthClaims)
  checked : Option AdminPc
  clock : Time
  accepted : Option AdminPc
  deriving DecidableEq

def exchange (r : Nat) (g₁ g₂ g₃ : Api) : Exchange :=
  ⟨g₁.requests r, g₁.signed.head?, g₂.requests r, g₂.clock, g₃.requests r⟩

/-- The request of the holder of key 5 is checked and accepted. -/
def smoothExchange (q : AdminRequest) (clock : Time) : Exchange :=
  ⟨some (.verify q 5), some (5, q.claims), some (.nonce q clock), clock, some (.perform q)⟩

theorem replay_facts :
    ((Run.play (Api.step replayConfig) replayStart (submitActions 0 30000)).bind fun g₁ =>
      (g₁.step replayConfig (.verify 0)).bind fun g₂ =>
      (g₂.step replayConfig (.nonce 0 0)).bind fun g₃ =>
      (Run.play (Api.step replayConfig) g₃ (pruneActions ++ submitActions 1 390000)).bind fun g₄ =>
      (g₄.step replayConfig (.verify 1)).bind fun g₅ =>
      (g₅.step replayConfig (.nonce 1 (minutes 6))).map fun g₆ =>
        (exchange 0 g₁ g₂ g₃, exchange 1 g₄ g₅ g₆)) =
    some (smoothExchange (statusRequest 30000) 0, smoothExchange (statusRequest 390000) (minutes 6)) := by
  decide +kernel

/-- An exchange extends a run. -/
theorem extend_smooth {start g₀ g₁ g₂ g₃ : Api} {actions : List AdminAction} {now : Time}
    (h : Run (AdminStep cfg) start tr g₀) (hassume : ∀ e ∈ tr, Assumed cfg e)
    (hplay : Run.play (Api.step cfg) g₀ actions = some g₁) (hcalm : ∀ a ∈ actions, a.calm = true)
    (hverify : g₁.step cfg (.verify r) = some g₂) (hnonce : g₂.step cfg (.nonce r now) = some g₃)
    (hsmooth : exchange r g₁ g₂ g₃ = smoothExchange q checked) :
    ∃ middle, Run (AdminStep cfg) start (⟨g₂, .nonce r now, g₃⟩ :: (middle ++ tr)) g₃ ∧
      (∀ e ∈ (⟨g₂, .nonce r now, g₃⟩ :: (middle ++ tr) : List AdminEvent), Assumed cfg e) ∧
      Accepts ⟨g₂, .nonce r now, g₃⟩ q checked := by
  obtain ⟨hpc, hsigned, hpc₂, hclock, hpc₃⟩ := Exchange.mk.inj hsmooth
  have hprompt : g₂.clock < checked + minutes 4 := by
    rw [hclock]
    exact Nat.lt_add_of_pos_right (by decide)
  obtain ⟨middle, hrun, hassumed⟩ := extend_accepted h hassume hplay hcalm hpc
    (List.mem_of_mem_head? hsigned) hverify hpc₂ hprompt hnonce
  exact ⟨middle, hrun, hassumed, r, now, rfl, hpc₂, hpc₃⟩

theorem admin_agreement_accepted :
    ∃ tr g e, Run (AdminStep replayConfig) replayStart (e :: tr) g ∧
      Accepts e (statusRequest 30000) 0 ∧ Agrees replayConfig e.src (statusRequest 30000) := by
  obtain ⟨g₁, hplay, hfacts⟩ := Option.bind_eq_some_iff.1 replay_facts
  obtain ⟨g₂, hverify, hfacts⟩ := Option.bind_eq_some_iff.1 hfacts
  obtain ⟨g₃, hnonce, hfacts⟩ := Option.bind_eq_some_iff.1 hfacts
  obtain ⟨g₄, -, hfacts⟩ := Option.bind_eq_some_iff.1 hfacts
  obtain ⟨g₅, -, hfacts⟩ := Option.bind_eq_some_iff.1 hfacts
  obtain ⟨g₆, -, hfacts⟩ := Option.map_eq_some_iff.1 hfacts
  obtain ⟨hsmooth, -⟩ := Prod.mk.inj hfacts
  have hempty : Run (AdminStep replayConfig) replayStart [] replayStart := .refl
  obtain ⟨middle, hrun, hassumed, haccepts⟩ := extend_smooth hempty
    (fun _ he => absurd he List.not_mem_nil) hplay (by decide) hverify hnonce hsmooth
  have hagreement := admin_agreement replayCrypto_jcsInjective hrun hassumed
  exact ⟨_, g₃, _, hrun, haccepts, hagreement.1 _ List.mem_cons_self _ _ haccepts⟩

/-- The holder signs a second request with the same nonce after six minutes; both are accepted. -/
theorem nonce_accepted_twice :
    ∃ tr g e e', e' ∈ tr ∧ Run (AdminStep replayConfig) replayStart (e :: tr) g ∧
      (∀ x ∈ e :: tr, Assumed replayConfig x) ∧ JcsInjective replayConfig.crypto ∧
      Accepts e (statusRequest 390000) (minutes 6) ∧ Accepts e' (statusRequest 30000) 0 ∧
      (statusRequest 390000).claims.installationId = (statusRequest 30000).claims.installationId ∧
      (statusRequest 390000).claims.nonce = (statusRequest 30000).claims.nonce := by
  obtain ⟨g₁, hplay, hfacts⟩ := Option.bind_eq_some_iff.1 replay_facts
  obtain ⟨g₂, hverify, hfacts⟩ := Option.bind_eq_some_iff.1 hfacts
  obtain ⟨g₃, hnonce, hfacts⟩ := Option.bind_eq_some_iff.1 hfacts
  obtain ⟨g₄, hplay', hfacts⟩ := Option.bind_eq_some_iff.1 hfacts
  obtain ⟨g₅, hverify', hfacts⟩ := Option.bind_eq_some_iff.1 hfacts
  obtain ⟨g₆, hnonce', hfacts⟩ := Option.map_eq_some_iff.1 hfacts
  obtain ⟨hsmooth, hsmooth'⟩ := Prod.mk.inj hfacts
  have hempty : Run (AdminStep replayConfig) replayStart [] replayStart := .refl
  obtain ⟨middle, hrun, hassumed, haccepts⟩ := extend_smooth hempty
    (fun _ he => absurd he List.not_mem_nil) hplay (by decide) hverify hnonce hsmooth
  obtain ⟨middle', hrun', hassumed', haccepts'⟩ :=
    extend_smooth hrun hassumed hplay' (by decide) hverify' hnonce' hsmooth'
  have hearlier := List.mem_append_right middle' (List.mem_cons_self (a := (⟨g₂, .nonce 0 0, g₃⟩ : AdminEvent)) (l := middle ++ []))
  exact ⟨_, g₆, _, _, hearlier, hrun', hassumed', replayCrypto_jcsInjective, haccepts', haccepts,
    rfl, rfl⟩

end BloomRelay.Control
