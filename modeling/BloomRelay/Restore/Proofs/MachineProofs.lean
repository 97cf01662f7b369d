import BloomRelay.Restore.Machine
import BloomRelay.Restore.Proofs.WitnessProofs

/-!
# The invariant of the witness machine

Everything a call has read is still true of the file while it holds the lock, and is a lower bound of
what the remote holds. So no write lowers a witness, whatever happened between the read and the write.
-/

namespace BloomRelay.Restore

variable {D H P C : Type} {F : Fleet D H P C} {w w' : World D H P C} {c : C} {pc pc' : Pc}

/-! ## What the invariant says -/

/-- No witness value of `w'` is below the one of `w`. -/
structure Raised (w w' : World D H P C) : Prop where
  file : ∀ h n, AtLeast (w.file h).value n → AtLeast (w'.file h).value n
  object : ∀ n, AtLeast (remoteValue w.object) n → AtLeast (remoteValue w'.object) n

/-- The remote once held this revision under this tag. -/
def Known (w : World D H P C) (r : RemoteRevision) : Prop :=
  ∃ o ∈ w.versions, o.tag = r.versionTag ∧ parseRevision o.contents = some r.revision

/-- What an attempt knows once it has read revision `R` and local value `L`. -/
structure Attempt (F : Fleet D H P C) (w : World D H P C) (c : C) (R : Nat) (L : Option Nat) :
    Prop where
  began : w.began c ≤ R
  bound : R < 2 ^ 64
  current : readRevision (w.file (F.hostOf c)) = .ok L

/-- What it knows of the remote answer. -/
def Answered (w : World D H P C) (r : Option RemoteRevision) : Prop :=
  ∀ x, r = some x → Known w x ∧ AtLeast (remoteValue w.object) x.revision

/-- The witness invariant of one call, by where it is. -/
def CallInv (F : Fleet D H P C) (w : World D H P C) (c : C) : Pc → Prop
  | .gotRevision _ R => w.began c ≤ R ∧ R < 2 ^ 64
  | .gotLocal _ R L | .needRemote _ R L => Attempt F w c R L
  | .gotRemote _ R L r => Attempt F w c R L ∧ Answered w r
  | .needPristine _ R L r => Attempt F w c R L ∧ L = none ∧ r = none
  | .checked _ R L r => Attempt F w c R L ∧ Answered w r ∧
      (∀ v, L = some v → v ≤ R) ∧ ∀ x, r = some x → x.revision ≤ R
  | .settled R L r => Attempt F w c R L ∧ (∀ v, L = some v → v ≤ R) ∧ r.revision = R ∧
      AtLeast (remoteValue w.object) R
  | .finishing R L => Attempt F w c R L ∧ (∀ v, L = some v → v ≤ R) ∧
      (F.remoteOf c = true → AtLeast (remoteValue w.object) R)
  | .done (.ok ()) => AtLeast (w.file (F.hostOf c)).value (w.began c) ∧
      (F.remoteOf c = true → AtLeast (remoteValue w.object) (w.began c))
  | _ => True

/-- What a write on its way relies on. -/
def RequestInv (w : World D H P C) (q : RemoteRequest C) : Prop :=
  q.revision < 2 ^ 64 ∧ ∀ x, q.replacing = some x → Known w x ∧ x.revision ≤ q.revision

/-- The invariant of the fleet, for the calls in `active`: a call in the middle of its step is left
out until the step is complete. -/
structure Inv (F : Fleet D H P C) (active : C → Prop) (w : World D H P C) : Prop where
  bound : F.revision w.db < 2 ^ 63
  began : ∀ c pc, w.pc c = some pc → w.began c ≤ F.revision w.db
  lock : ∀ c pc, w.pc c = some pc → pc.holdsLock = true → w.lock (F.hostOf c) = some c
  object : ∀ o, w.object = some o → o ∈ w.versions
  tags : ∀ o ∈ w.versions, ∀ o' ∈ w.versions, o.tag = o'.tag → o.contents = o'.contents
  seen : ∀ p r, w.seen p = some r → AtLeast (remoteValue w.object) r.revision
  inflight : ∀ q ∈ w.inflight, RequestInv w q
  call : ∀ c pc, active c → w.pc c = some pc → CallInv F w c pc

/-- The invariant of every call. -/
abbrev FleetInv (F : Fleet D H P C) (w : World D H P C) : Prop := Inv F (fun _ => True) w

theorem World.Initial.inv (h : w.Initial F) : FleetInv F w where
  bound := h.bound
  began := fun c pc hpc => by simp [h.pc c] at hpc
  lock := fun c pc hpc => by simp [h.pc c] at hpc
  object := fun o ho => by simp [h.versions, ho]
  tags := by
    rw [h.versions]
    intro o ho o' ho' _
    have heq : o = o' := Option.some.inj
      ((Option.mem_toList.mp ho).symm.trans (Option.mem_toList.mp ho'))
    rw [heq]
  seen := fun p r hr => by simp [h.seen p] at hr
  inflight := fun q hq => by simp [h.inflight] at hq
  call := fun c pc _ hpc => by simp [h.pc c] at hpc

/-! ## Frames -/

namespace Raised

theorem refl (w : World D H P C) : Raised w w := ⟨fun _ _ h => h, fun _ h => h⟩

theorem trans {w₁ w₂ w₃ : World D H P C} (h : Raised w₁ w₂) (h' : Raised w₂ w₃) : Raised w₁ w₃ :=
  ⟨fun x n hx => h'.file x n (h.file x n hx), fun n hx => h'.object n (h.object n hx)⟩

theorem of_eq (hfile : w'.file = w.file) (hobject : w'.object = w.object) : Raised w w' :=
  ⟨fun _ _ h => by rwa [hfile], fun _ h => by rwa [hobject]⟩

end Raised

theorem Known.mono {r : RemoteRevision} (h : Known w r) (hv : ∀ o ∈ w.versions, o ∈ w'.versions) :
    Known w' r := by
  obtain ⟨o, ho, htag⟩ := h
  exact ⟨o, hv o ho, htag⟩

theorem Attempt.mono {R : Nat} {L : Option Nat} (h : Attempt F w c R L)
    (hbegan : w'.began c = w.began c) (hfile : w'.file (F.hostOf c) = w.file (F.hostOf c)) :
    Attempt F w' c R L :=
  ⟨hbegan ▸ h.began, h.bound, hfile ▸ h.current⟩

theorem Answered.mono {r : Option RemoteRevision} (h : Answered w r) (hr : Raised w w')
    (hv : ∀ o ∈ w.versions, o ∈ w'.versions) : Answered w' r :=
  fun x hx => ⟨(h x hx).1.mono hv, hr.object _ (h x hx).2⟩

/-- What a call knows survives every step that lowers no witness and leaves its file alone while it
holds the lock. -/
theorem CallInv.mono (h : CallInv F w c pc) (hr : Raised w w')
    (hv : ∀ o ∈ w.versions, o ∈ w'.versions) (hbegan : w'.began c = w.began c)
    (hfile : pc.holdsLock = true → w'.file (F.hostOf c) = w.file (F.hostOf c)) :
    CallInv F w' c pc := by
  cases pc with
  | locking | attempt | conflicted | dead => trivial
  | gotRevision _ R => exact ⟨hbegan ▸ h.1, h.2⟩
  | gotLocal _ R L | needRemote _ R L => exact Attempt.mono h hbegan (hfile rfl)
  | gotRemote _ R L r => exact ⟨h.1.mono hbegan (hfile rfl), h.2.mono hr hv⟩
  | needPristine _ R L r => exact ⟨h.1.mono hbegan (hfile rfl), h.2⟩
  | checked _ R L r => exact ⟨h.1.mono hbegan (hfile rfl), h.2.1.mono hr hv, h.2.2⟩
  | settled R L r =>
    exact ⟨h.1.mono hbegan (hfile rfl), h.2.1, h.2.2.1, hr.object _ h.2.2.2⟩
  | finishing R L =>
    exact ⟨h.1.mono hbegan (hfile rfl), h.2.1, fun hc => hr.object _ (h.2.2 hc)⟩
  | done result =>
    cases result with
    | error e => trivial
    | ok u =>
      cases u
      obtain ⟨hlocal, hremote⟩ := h
      exact ⟨hbegan ▸ hr.file _ _ hlocal, fun hc => hbegan ▸ hr.object _ (hremote hc)⟩

theorem CallInv.frame (h : CallInv F w c pc) (hfile : w'.file = w.file)
    (hobject : w'.object = w.object) (hversions : w'.versions = w.versions)
    (hbegan : w'.began = w.began) : CallInv F w' c pc :=
  h.mono (Raised.of_eq hfile hobject) (fun _ ho => hversions ▸ ho) (congrFun hbegan c)
    fun _ => congrFun hfile _

theorem RequestInv.mono {q : RemoteRequest C} (h : RequestInv w q)
    (hv : ∀ o ∈ w.versions, o ∈ w'.versions) : RequestInv w' q :=
  ⟨h.1, fun x hx => ⟨(h.2 x hx).1.mono hv, (h.2 x hx).2⟩⟩

/-! ## One change of the world at a time -/

namespace Inv

variable {active : C → Prop}

/-- Sets one call aside. -/
theorem but (h : FleetInv F w) (c : C) : Inv F (· ≠ c) w :=
  { h with call := fun c' pc _ hpc => h.call c' pc trivial hpc }

/-- A call moves on. -/
theorem goto [DecidableEq C] (h : Inv F (· ≠ c) w) (hpc : w.pc c = some pc)
    (hlock : pc'.holdsLock = true → w.lock (F.hostOf c) = some c) (hc : CallInv F w c pc') :
    FleetInv F (w.goto c pc') where
  bound := h.bound
  began := by
    intro c' p hp
    by_cases heq : c' = c
    · subst heq
      exact h.began _ _ hpc
    · exact h.began c' p (by simpa [World.goto, heq] using hp)
  lock := by
    intro c' p hp hheld
    by_cases heq : c' = c
    · subst heq
      have : pc' = p := by simpa [World.goto] using hp
      exact hlock (this ▸ hheld)
    · exact h.lock c' p (by simpa [World.goto, heq] using hp) hheld
  object := h.object
  tags := h.tags
  seen := h.seen
  inflight := h.inflight
  call := by
    intro c' p _ hp
    by_cases heq : c' = c
    · subst heq
      have : pc' = p := by simpa [World.goto] using hp
      exact this ▸ hc.frame rfl rfl rfl rfl
    · exact (h.call c' p heq (by simpa [World.goto, heq] using hp)).frame rfl rfl rfl rfl

/-- A call that has the lock ends and leaves it. -/
theorem finish [DecidableEq H] [DecidableEq C] (h : Inv F (· ≠ c) w) (hpc : w.pc c = some pc)
    (hheld : pc.holdsLock = true) (hend : pc'.holdsLock = false) (hc : CallInv F w c pc') :
    FleetInv F (w.finish F c pc') where
  bound := h.bound
  began := by
    intro c' p hp
    by_cases heq : c' = c
    · subst heq
      exact h.began _ _ hpc
    · exact h.began c' p (by simpa [World.finish, World.goto, World.setLock, heq] using hp)
  lock := by
    intro c' p hp hholds
    have hmine := h.lock c pc hpc hheld
    by_cases heq : c' = c
    · subst heq
      have : pc' = p := by simpa [World.finish, World.goto] using hp
      rw [← this, hend] at hholds
      cases hholds
    · have hother := h.lock c' p
        (by simpa [World.finish, World.goto, World.setLock, heq] using hp) hholds
      -- one host's lock has one holder, so the other call is on another host
      have hhost : F.hostOf c' ≠ F.hostOf c := by
        intro hh
        rw [hh, hmine] at hother
        exact heq (Option.some.inj hother).symm
      simpa [World.finish, World.goto, World.setLock, hhost] using hother
  object := h.object
  tags := h.tags
  seen := h.seen
  inflight := h.inflight
  call := by
    intro c' p _ hp
    by_cases heq : c' = c
    · subst heq
      have : pc' = p := by simpa [World.finish, World.goto] using hp
      exact this ▸ hc.frame rfl rfl rfl rfl
    · have hold : w.pc c' = some p := by
        simpa [World.finish, World.goto, World.setLock, heq] using hp
      exact (h.call c' p heq hold).frame rfl rfl rfl rfl

theorem setLock [DecidableEq H] (h : Inv F active w) {x : H} (hfree : w.lock x = none)
    (holder : Option C) : Inv F active (w.setLock x holder) :=
  { h with
    lock := by
      intro c' p hp hheld
      have hother := h.lock c' p hp hheld
      have hne : F.hostOf c' ≠ x := by
        intro hh
        rw [hh, hfree] at hother
        cases hother
      simpa [World.setLock, hne] using hother
    call := fun c' p ha hp => (h.call c' p ha hp).frame rfl rfl rfl rfl }

theorem setSeen [DecidableEq P] (h : Inv F active w) {p : P} {r : Option RemoteRevision}
    (hr : ∀ x, r = some x → AtLeast (remoteValue w.object) x.revision) :
    Inv F active (w.setSeen p r) :=
  { h with
    seen := by
      intro p' x hx
      by_cases heq : p' = p
      · subst heq
        exact hr x (by simpa [World.setSeen] using hx)
      · exact h.seen p' x (by simpa [World.setSeen, heq] using hx)
    call := fun c' p ha hp => (h.call c' p ha hp).frame rfl rfl rfl rfl }

theorem send (h : Inv F active w) {q : RemoteRequest C} (hq : RequestInv w q) :
    Inv F active (w.send q) :=
  { h with
    inflight := by
      intro q' hq'
      rcases List.mem_cons.mp hq' with rfl | hmem
      · exact hq
      · exact h.inflight q' hmem
    call := fun c' p ha hp => (h.call c' p ha hp).frame rfl rfl rfl rfl }

/-- The remote store applies a write that lowers nothing. -/
theorem putObject (h : Inv F active w) {o : RemoteObject} (htag : w.TagFor o.contents o.tag)
    (hr : Raised w (w.putObject o)) : Inv F active (w.putObject o) := by
  have hv : ∀ x ∈ w.versions, x ∈ (w.putObject o).versions := fun x hx => List.mem_cons_of_mem o hx
  exact
    { bound := h.bound
      began := h.began
      lock := h.lock
      object := by
        intro x hx
        cases hx
        exact List.mem_cons_self
      tags := by
        intro x hx y hy hxy
        rcases List.mem_cons.mp hx with rfl | hx' <;> rcases List.mem_cons.mp hy with rfl | hy'
        · rfl
        · exact (htag y hy' hxy.symm).symm
        · exact htag x hx' hxy
        · exact h.tags x hx' y hy' hxy
      seen := fun p x hx => hr.object _ (h.seen p x hx)
      inflight := fun q hq => (h.inflight q hq).mono hv
      call := fun c' p ha hp => (h.call c' p ha hp).mono hr hv rfl fun _ => rfl }

/-- The holder of a host's lock replaces the host's file by one that is not lower. -/
theorem setFile [DecidableEq H] (h : Inv F (· ≠ c) w) (hpc : w.pc c = some pc)
    (hheld : pc.holdsLock = true) {f : LocalFile} (hr : Raised w (w.setFile (F.hostOf c) f)) :
    Inv F (· ≠ c) (w.setFile (F.hostOf c) f) :=
  { h with
    call := by
      intro c' p hne hp
      refine (h.call c' p hne hp).mono hr (fun _ ho => ho) rfl fun hholds => ?_
      have hmine := h.lock c pc hpc hheld
      have hother := h.lock c' p hp hholds
      have hhost : F.hostOf c' ≠ F.hostOf c := by
        intro hh
        rw [hh, hmine] at hother
        exact hne (Option.some.inj hother).symm
      simp [World.setFile, hhost] }

end Inv

section Steps

/-! ## No write lowers a witness -/

/-- A conditional write that goes through replaces the revision it was based on. -/
theorem raised_putObject {active : C → Prop} (h : Inv F active w) {R : Nat}
    {r : Option RemoteRevision} (tag : String) (hR : R < 2 ^ 64)
    (hr : ∀ x, r = some x → Known w x ∧ x.revision ≤ R) (hcas : writeAllowed w.object r) :
    Raised w (w.putObject ⟨revisionContents R, tag⟩) := by
  refine ⟨fun _ _ hx => hx, fun n hn => ?_⟩
  obtain ⟨v, hv, hle⟩ := hn
  refine ⟨R, remoteValue_written hR, ?_⟩
  cases hobject : w.object with
  | none => simp [remoteValue, hobject] at hv
  | some o =>
    cases r with
    | none => simp [writeAllowed, hobject] at hcas
    | some x =>
      obtain ⟨⟨o', ho', htag', hparse⟩, hxR⟩ := hr x rfl
      have htag : o.tag = x.versionTag := by simpa [writeAllowed, hobject] using hcas
      -- the tag is still the one that was read, so the content is too
      have hsame : o.contents = o'.contents :=
        h.tags o (h.object o hobject) o' ho' (htag.trans htag'.symm)
      have hvx : v = x.revision := by
        have : parseRevision o.contents = some v := by simpa [remoteValue, hobject] using hv
        rw [hsame, hparse] at this
        exact (Option.some.inj this).symm
      omega

theorem raised_setFile [DecidableEq H] {R : Nat} {L : Option Nat} (hat : Attempt F w c R L)
    (hle : ∀ v, L = some v → v ≤ R) : Raised w (w.setFile (F.hostOf c) (writtenFile R)) := by
  refine ⟨fun h n hn => ?_, fun _ hx => hx⟩
  by_cases heq : h = F.hostOf c
  · subst heq
    obtain ⟨v, hv, hnv⟩ := hn
    have hL : L = some v := by rw [← value_of_readRevision hat.current, hv]
    have hvR := hle v hL
    refine ⟨R, ?_, by omega⟩
    simp [World.setFile, value_writtenFile hat.bound]
  · simpa [World.setFile, heq] using hn

/-! ## What a call's step keeps -/

theorem answered_of_read (h : FleetInv F w) {r : Option RemoteRevision}
    (hread : readRemote w.object = .ok r) : Answered w r := by
  intro x hx
  subst hx
  obtain ⟨o, ho, htag, hparse⟩ := readRemote_some hread
  refine ⟨⟨o, h.object o ho, htag, hparse⟩, x.revision, ?_, le_rfl⟩
  simp [remoteValue, ho, hparse]

/-- The cached revision and the local value are both the revision read: nothing is left to do. -/
theorem acknowledged_of_seen (h : FleetInv F w) {R : Nat} {L : Option Nat}
    (hat : Attempt F w c R L) (hs : seenCurrent R L (w.seen (F.process c)) = true) :
    CallInv F w c (.done (.ok ())) := by
  simp only [seenCurrent, Bool.and_eq_true, Option.any_eq_true, decide_eq_true_eq] at hs
  obtain ⟨⟨s, hseen, hsR⟩, hL⟩ := hs
  have hremote := h.seen _ s hseen
  refine ⟨⟨R, ?_, hat.began⟩, fun _ => hremote.mono (by have := hat.began; omega)⟩
  rw [value_of_readRevision hat.current, hL]

theorem checked_of_prior {R p : Nat} {L : Option Nat} {r : Option RemoteRevision} {n : Nat}
    (hc : CallInv F w c (.gotRemote n R L r)) (hp : prior L r = some p) (hle : p ≤ R) :
    CallInv F w c (.checked n R L r) := by
  obtain ⟨hlocal, hremote⟩ := prior_bounds hp
  exact ⟨hc.1, hc.2, fun v hv => (hlocal v hv).trans hle, fun x hx => (hremote x hx).trans hle⟩

theorem acknowledged_of_written [DecidableEq H] {R : Nat} {L : Option Nat}
    (hc : CallInv F w c (.finishing R L)) :
    CallInv F (w.setFile (F.hostOf c) (writtenFile R)) c (.done (.ok ())) := by
  obtain ⟨hat, -, hremote⟩ := hc
  refine ⟨⟨R, ?_, hat.began⟩, fun hr => (hremote hr).mono hat.began⟩
  simp [World.setFile, value_writtenFile hat.bound]

variable [DecidableEq H] [DecidableEq P] [DecidableEq C]

/-- A step of a call keeps the invariant and lowers no witness. -/
theorem CallStep.inv (hs : CallStep F c w w') (h : FleetInv F w) :
    FleetInv F w' ∧ Raised w w' := by
  have hbut := Inv.but h c
  cases hs with
  | lockFailed hpc | diedWaiting hpc =>
    exact ⟨hbut.goto hpc (fun hh => by cases hh) trivial, Raised.of_eq rfl rfl⟩
  | locked hpc hfree =>
    refine ⟨(hbut.setLock hfree (some c)).goto hpc (fun _ => ?_) trivial, Raised.of_eq rfl rfl⟩
    simp [World.setLock]
  | exhausted hpc | revisionFailed hpc | localFailed hpc | remoteFailed hpc | missing hpc
  | established hpc | pristineFailed hpc | stale hpc | localWriteFailed hpc =>
    exact ⟨hbut.finish hpc rfl rfl trivial, Raised.of_eq rfl rfl⟩
  | died hpc hheld => exact ⟨hbut.finish hpc hheld rfl trivial, Raised.of_eq rfl rfl⟩
  | revisionRead hpc =>
    have hbound := h.bound
    exact ⟨hbut.goto hpc (fun _ => h.lock c _ hpc rfl) ⟨h.began c _ hpc, by omega⟩,
      Raised.of_eq rfl rfl⟩
  | localRead hpc hL =>
    have hc := h.call c _ trivial hpc
    exact ⟨hbut.goto hpc (fun _ => h.lock c _ hpc rfl) ⟨hc.1, hc.2, hL⟩, Raised.of_eq rfl rfl⟩
  | noRemote hpc =>
    have hc := h.call c _ trivial hpc
    refine ⟨hbut.goto hpc (fun _ => h.lock c _ hpc rfl) ⟨hc, ?_⟩, Raised.of_eq rfl rfl⟩
    intro x hx
    cases hx
  | skipped hpc _ hseen =>
    have hc := h.call c _ trivial hpc
    exact ⟨hbut.finish hpc rfl rfl (acknowledged_of_seen h hc hseen), Raised.of_eq rfl rfl⟩
  | notSkipped hpc =>
    have hc := h.call c _ trivial hpc
    exact ⟨hbut.goto hpc (fun _ => h.lock c _ hpc rfl) hc, Raised.of_eq rfl rfl⟩
  | remoteRead hpc hread =>
    have hc := h.call c _ trivial hpc
    exact ⟨hbut.goto hpc (fun _ => h.lock c _ hpc rfl) ⟨hc, answered_of_read h hread⟩,
      Raised.of_eq rfl rfl⟩
  | askPristine hpc hp =>
    have hc := h.call c _ trivial hpc
    exact ⟨hbut.goto hpc (fun _ => h.lock c _ hpc rfl) ⟨hc.1, prior_eq_none.mp hp⟩,
      Raised.of_eq rfl rfl⟩
  | pristine hpc =>
    obtain ⟨hat, rfl, rfl⟩ := h.call c _ trivial hpc
    refine ⟨hbut.goto hpc (fun _ => h.lock c _ hpc rfl) ⟨hat, ?_, ?_, ?_⟩, Raised.of_eq rfl rfl⟩
    all_goals intro x hx; cases hx
  | fresh hpc hp hle =>
    have hc := checked_of_prior (h.call c _ trivial hpc) hp hle
    exact ⟨hbut.goto hpc (fun _ => h.lock c _ hpc rfl) hc, Raised.of_eq rfl rfl⟩
  | localOnly hpc hr =>
    obtain ⟨hat, -, hle, -⟩ := h.call c _ trivial hpc
    refine ⟨hbut.goto hpc (fun _ => h.lock c _ hpc rfl) ⟨hat, hle, ?_⟩, Raised.of_eq rfl rfl⟩
    intro hr'
    rw [hr] at hr'
    cases hr'
  | remoteCurrent hpc _ hR =>
    obtain ⟨hat, hanswer, hle, -⟩ := h.call c _ trivial hpc
    have hremote := (hanswer _ rfl).2
    exact ⟨hbut.goto hpc (fun _ => h.lock c _ hpc rfl) ⟨hat, hle, hR, hR ▸ hremote⟩,
      Raised.of_eq rfl rfl⟩
  | @remoteWritten _ _ _ _ tag hpc _ _ hcas htag =>
    obtain ⟨hat, hanswer, hle, hremote⟩ := h.call c _ trivial hpc
    have hraised := raised_putObject h tag hat.bound
      (fun x hx => ⟨(hanswer x hx).1, hremote x hx⟩) hcas
    refine ⟨(hbut.putObject htag hraised).goto hpc (fun _ => h.lock c _ hpc rfl)
      ⟨hat.mono rfl rfl, hle, rfl, ?_⟩, hraised.trans (Raised.of_eq rfl rfl)⟩
    exact ⟨_, remoteValue_written hat.bound, le_rfl⟩
  | @conflictWritten _ _ _ _ tag hpc _ _ hcas htag =>
    obtain ⟨hat, hanswer, -, hremote⟩ := h.call c _ trivial hpc
    have hraised := raised_putObject h tag hat.bound
      (fun x hx => ⟨(hanswer x hx).1, hremote x hx⟩) hcas
    exact ⟨(hbut.putObject htag hraised).goto hpc (fun _ => h.lock c _ hpc rfl) trivial,
      hraised.trans (Raised.of_eq rfl rfl)⟩
  | conflict hpc => exact ⟨hbut.goto hpc (fun _ => h.lock c _ hpc rfl) trivial, Raised.of_eq rfl rfl⟩
  | writeLost hpc | diedWriting hpc =>
    obtain ⟨hat, hanswer, -, hremote⟩ := h.call c _ trivial hpc
    have hrequest : RequestInv w ⟨c, _, _⟩ :=
      ⟨hat.bound, fun x hx => ⟨(hanswer x hx).1, hremote x hx⟩⟩
    exact ⟨(hbut.send hrequest).finish hpc rfl rfl trivial, Raised.of_eq rfl rfl⟩
  | seenCleared hpc =>
    have hseen : Inv F (· ≠ c) (w.setSeen (F.process c) none) := hbut.setSeen fun x hx => by cases hx
    exact ⟨hseen.goto hpc (fun _ => h.lock c _ hpc rfl) trivial, Raised.of_eq rfl rfl⟩
  | seenStored hpc =>
    obtain ⟨hat, hle, hR, hremote⟩ := h.call c _ trivial hpc
    have hseen := hbut.setSeen (p := F.process c) (r := some _) fun x hx => by
      cases hx
      exact hR ▸ hremote
    exact ⟨hseen.goto hpc (fun _ => h.lock c _ hpc rfl) ⟨hat.mono rfl rfl, hle, fun _ => hremote⟩,
      Raised.of_eq rfl rfl⟩
  | localCurrent hpc hL =>
    obtain ⟨hat, -, hremote⟩ := h.call c _ trivial hpc
    refine ⟨hbut.finish hpc rfl rfl ⟨⟨_, ?_, hat.began⟩, fun hr => (hremote hr).mono hat.began⟩,
      Raised.of_eq rfl rfl⟩
    rw [value_of_readRevision hat.current, hL]
  | localWritten hpc =>
    have hc := h.call c _ trivial hpc
    have hraised := raised_setFile hc.1 hc.2.1
    exact ⟨(hbut.setFile hpc rfl hraised).finish hpc rfl rfl (acknowledged_of_written hc),
      hraised.trans (Raised.of_eq rfl rfl)⟩
  | localSyncFailed hpc =>
    have hc := h.call c _ trivial hpc
    have hraised := raised_setFile hc.1 hc.2.1
    exact ⟨(hbut.setFile hpc rfl hraised).finish hpc rfl rfl trivial,
      hraised.trans (Raised.of_eq rfl rfl)⟩

/-! ## What every step keeps -/

theorem Step.inv {l : Label C} (hs : Step F w l w') (h : FleetInv F w) :
    FleetInv F w' ∧ Raised w w' := by
  cases hs with
  | commit d hle hlt =>
    refine ⟨{ h with bound := hlt, began := ?_, call := ?_ }, Raised.of_eq rfl rfl⟩
    · exact fun c pc hpc => (h.began c pc hpc).trans hle
    · exact fun c pc hc hpc => (h.call c pc hc hpc).frame rfl rfl rfl rfl
  | start c hpc =>
    refine ⟨{ h with began := ?_, lock := ?_, call := ?_ }, Raised.of_eq rfl rfl⟩
    · intro c' pc hpc'
      by_cases heq : c' = c
      · subst heq
        simp [World.goto]
      · simpa [World.goto, heq] using h.began c' pc (by simpa [World.goto, heq] using hpc')
    · intro c' pc hpc' hheld
      by_cases heq : c' = c
      · subst heq
        have : Pc.locking = pc := by simpa [World.goto] using hpc'
        subst this
        cases hheld
      · exact h.lock c' pc (by simpa [World.goto, heq] using hpc') hheld
    · intro c' pc _ hpc'
      by_cases heq : c' = c
      · subst heq
        have : Pc.locking = pc := by simpa [World.goto] using hpc'
        subst this
        trivial
      · have hold : w.pc c' = some pc := by simpa [World.goto, heq] using hpc'
        refine (h.call c' pc trivial hold).mono (Raised.of_eq rfl rfl) (fun _ ho => ho) ?_
          fun _ => rfl
        simp [World.goto, heq]
  | act c hc => exact hc.inv h
  | deliver q tag hq hcas htag =>
    obtain ⟨hbound, hreplace⟩ := h.inflight q hq
    have hraised := raised_putObject h tag hbound hreplace hcas
    exact ⟨h.putObject htag hraised, hraised⟩

/-- The invariant holds in every state of every run. -/
theorem inv_of_run {w₀ : World D H P C} {tr : List (Event (World D H P C) (Label C))}
    (h0 : w₀.Initial F) (hrun : Run (Step F) w₀ tr w) : FleetInv F w :=
  hrun.state_invariant (FleetInv F) h0.inv fun _ _ _ hi hs => (hs.inv hi).1

end Steps

end BloomRelay.Restore
