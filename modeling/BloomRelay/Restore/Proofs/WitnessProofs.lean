import BloomRelay.Restore.Witness
import BloomRelay.Lib.Decimal

/-!
# The texts of the witness and the highest witness

A written revision reads back as itself, from the file and from the object; `prior` is at least both
witnesses.
-/

namespace BloomRelay.Restore

/-- A value is there and is at least `n`. -/
def AtLeast (value : Option Nat) (n : Nat) : Prop := ∃ v, value = some v ∧ n ≤ v

theorem AtLeast.mono {value : Option Nat} {m n : Nat} (h : AtLeast value n) (hle : m ≤ n) :
    AtLeast value m := by
  obtain ⟨v, hv, hn⟩ := h
  exact ⟨v, hv, by omega⟩

/-! ## Reading back what was written -/

theorem trimNewlines_append {cs : List Char} (h : ∀ c ∈ cs, c ≠ '\n') :
    trimNewlines (cs ++ ['\n']) = cs := by
  have hdrop : cs.reverse.dropWhile (· == '\n') = cs.reverse := by
    cases hrev : cs.reverse with
    | nil => rfl
    | cons c rest =>
      have hc : c ∈ cs := List.mem_reverse.mp (hrev ▸ List.mem_cons_self)
      have hne : (c == '\n') = false := beq_eq_false_iff_ne.mpr (h c hc)
      simp [List.dropWhile, hne]
  simp [trimNewlines, hdrop]

/-- The bytes of a digit are the digit. -/
theorem char_of_digit_byte {c : Char} (h : c.isDigit = true) :
    Char.ofNat (UInt8.ofNat c.toNat).toNat = c := by
  have hdigit : c.toNat ≤ 57 := by
    simp only [Char.isDigit, Bool.and_eq_true, decide_eq_true_eq, ge_iff_le] at h
    exact UInt32.le_iff_toNat_le.mp h.2
  have hbyte : (UInt8.ofNat c.toNat).toNat = c.toNat := by
    rw [UInt8.toNat_ofNat']
    omega
  rw [hbyte, Char.ofNat_toNat]

theorem length_toDigits_u64 {n : Nat} (h : n < 2 ^ 64) : (Nat.toDigits 10 n).length ≤ 20 := by
  have hlt : n < 10 ^ 20 := by omega
  exact (Nat.length_toDigits_le_iff (by decide) (by decide)).mpr hlt

/-- What a witness write leaves parses as the revision. -/
theorem parseRevision_contents {n : Nat} (h : n < 2 ^ 64) :
    parseRevision (revisionContents n) = some n := by
  have hdigit : ∀ c ∈ Nat.toDigits 10 n, c.isDigit = true := fun c hc =>
    Nat.isDigit_of_mem_toDigits (by decide) (by decide) hc
  have hlength : (revisionContents n).length ≤ 24 := by
    have := length_toDigits_u64 h
    simp only [revisionContents, List.length_append, List.length_map, List.length_singleton]
    omega
  have hchars : (revisionContents n).map (fun b => Char.ofNat b.toNat)
      = Nat.toDigits 10 n ++ ['\n'] := by
    have hmap : (Nat.toDigits 10 n).map
        ((fun b : UInt8 => Char.ofNat b.toNat) ∘ fun c => UInt8.ofNat c.toNat)
        = Nat.toDigits 10 n :=
      (List.map_congr_left fun c hc => char_of_digit_byte (hdigit c hc)).trans (List.map_id _)
    simp only [revisionContents, List.map_append, List.map_map, hmap]
    rfl
  have htrim : trimNewlines (Nat.toDigits 10 n ++ ['\n']) = Nat.toDigits 10 n := by
    refine trimNewlines_append fun c hc hnl => ?_
    have := hdigit c hc
    subst hnl
    exact absurd this (by decide)
  unfold parseRevision
  rw [if_neg (by omega), hchars, htrim]
  exact Decimal.parse?_toDigits h

theorem readRevision_writtenFile {n : Nat} (h : n < 2 ^ 64) :
    readRevision (writtenFile n) = .ok (some n) := by
  have hmode : ¬ (432 &&& 7 ≠ 0) := by decide
  simp only [writtenFile, readRevision, if_neg hmode, parseRevision_contents h]

theorem readRevision_error {f : LocalFile} {e : WitnessError} (h : readRevision f = .error e) :
    e = .io := by
  cases f with
  | absent => cases h
  | notAFile => exact (Except.error.inj h).symm
  | file mode contents =>
    simp only [readRevision] at h
    split at h
    · exact (Except.error.inj h).symm
    · split at h
      · cases h
      · exact (Except.error.inj h).symm

theorem value_of_readRevision {f : LocalFile} {value : Option Nat} (h : readRevision f = .ok value) :
    f.value = value := by
  simp [LocalFile.value, h, Except.toOption]

@[simp] theorem value_writtenFile {n : Nat} (h : n < 2 ^ 64) : (writtenFile n).value = some n :=
  value_of_readRevision (readRevision_writtenFile h)

@[simp] theorem remoteValue_written {n : Nat} {tag : String} (h : n < 2 ^ 64) :
    remoteValue (some ⟨revisionContents n, tag⟩) = some n :=
  parseRevision_contents h

/-- What the remote answered is what it holds. -/
theorem readRemote_some {object : Option RemoteObject} {r : RemoteRevision}
    (h : readRemote object = .ok (some r)) :
    ∃ o, object = some o ∧ o.tag = r.versionTag ∧ parseRevision o.contents = some r.revision := by
  cases object with
  | none => cases h
  | some o =>
    simp only [readRemote, Checked.bind_eq_ok, Checked.found_eq_ok, Except.ok.injEq,
      Option.some.injEq] at h
    obtain ⟨revision, hparse, rfl⟩ := h
    exact ⟨o, rfl, rfl, hparse⟩

theorem readRemote_error {object : Option RemoteObject} {e : WitnessError}
    (h : readRemote object = .error e) : e = .io := by
  cases object with
  | none => cases h
  | some o =>
    cases hparse : parseRevision o.contents with
    | none =>
      simp only [readRemote, hparse, Checked.found, bind, Except.bind] at h
      exact (Except.error.inj h).symm
    | some v => simp [readRemote, hparse, Checked.found, bind, Except.bind] at h

/-! ## The highest witness -/

theorem prior_eq_none {local_ : Option Nat} {remote : Option RemoteRevision} :
    prior local_ remote = none ↔ local_ = none ∧ remote = none := by
  cases local_ <;> cases remote <;> simp [prior]

theorem prior_bounds {local_ : Option Nat} {remote : Option RemoteRevision} {p : Nat}
    (h : prior local_ remote = some p) :
    (∀ v, local_ = some v → v ≤ p) ∧ ∀ r, remote = some r → r.revision ≤ p := by
  cases local_ <;> cases remote <;>
    simp only [prior, Option.some.injEq, reduceCtorEq] at h <;> subst h <;> simp

theorem prior_of_local (v : Nat) (remote : Option RemoteRevision) :
    ∃ p, prior (some v) remote = some p ∧ v ≤ p := by
  cases remote with
  | none => exact ⟨v, rfl, le_rfl⟩
  | some r => exact ⟨_, rfl, Nat.le_max_left _ _⟩

theorem prior_of_remote (local_ : Option Nat) (r : RemoteRevision) :
    ∃ p, prior local_ (some r) = some p ∧ r.revision ≤ p := by
  cases local_ with
  | none => exact ⟨_, rfl, le_rfl⟩
  | some v => exact ⟨_, rfl, Nat.le_max_right _ _⟩

/-! ## A database below the witness -/

variable {etag : Bytes → String} {remote : Bool} {revision : Nat} {pristine : Bool} {ws : Witnesses}

/-- The two reads behind `highest`. -/
theorem highest_ok {p : Option Nat} (h : highest remote ws = .ok p) :
    ∃ local_ found, readRevision ws.file = .ok local_ ∧
      (if remote then readRemote ws.object else .ok none) = .ok found ∧ prior local_ found = p := by
  simp only [highest, Checked.bind_eq_ok, Except.ok.injEq] at h
  obtain ⟨local_, hlocal, found, hfound, hp⟩ := h
  exact ⟨local_, found, hlocal, hfound, hp⟩

theorem concludeAttempt_stale {local_ : Option Nat} {found : Option RemoteRevision} {p : Nat}
    (hp : prior local_ found = some p) (hlt : revision < p) :
    concludeAttempt etag remote revision pristine local_ found ws = (.error .staleDatabase, ws) := by
  have hcheck : checkPrior revision pristine (some p) = .error .staleDatabase := by
    simp only [checkPrior, Checked.require, if_neg (Nat.not_le.mpr hlt)]
  simp only [concludeAttempt, hp, hcheck]

/-- Below the witness a call is refused and writes nothing, unless its cache hides the witness. -/
theorem verifyAndAdvance_of_below (h : Below remote revision ws)
    (hskip : skipsRemote remote revision ws = false) :
    verifyAndAdvance etag remote revision pristine ws = (.error .staleDatabase, ws) := by
  obtain ⟨p, hhigh, hlt⟩ := h
  obtain ⟨local_, found, hlocal, hfound, hp⟩ := highest_ok hhigh
  simp only [skipsRemote, hlocal] at hskip
  cases remote with
  | false =>
    simp only [Bool.false_eq_true, if_false, Except.ok.injEq] at hfound
    subst hfound
    simp only [verifyAndAdvance, hlocal, Bool.false_eq_true, if_false]
    exact concludeAttempt_stale hp hlt
  | true =>
    simp only [if_true] at hfound
    simp only [Bool.true_and] at hskip
    simp only [verifyAndAdvance, hlocal, if_true, hskip, Bool.false_eq_true, if_false, hfound]
    exact concludeAttempt_stale hp hlt

theorem verifyAndAdvance_of_skipsRemote (hskip : skipsRemote remote revision ws = true) :
    verifyAndAdvance etag remote revision pristine ws = (.ok (), ws) := by
  unfold skipsRemote at hskip
  split at hskip
  · rename_i local_ hlocal
    obtain ⟨hremote, hseen⟩ := Bool.and_eq_true_iff.mp hskip
    simp only [verifyAndAdvance, hlocal, hremote, if_true, hseen]
  · cases hskip

/-- With no witness at all only a new database starts. -/
theorem verifyAndAdvance_of_absent (hfile : ws.file = .absent)
    (hobject : remote = true → ws.object = none) (hseen : ws.seen = none)
    (hold : ¬ (revision = 1 ∧ pristine = true)) :
    verifyAndAdvance etag remote revision pristine ws = (.error .missing, ws) := by
  have hcheck : checkPrior revision pristine none = .error .missing := by
    simp only [checkPrior, Checked.require, if_neg hold]
  cases remote with
  | false =>
    simp only [verifyAndAdvance, hfile, readRevision, Bool.false_eq_true, if_false,
      concludeAttempt, prior, hcheck]
  | true =>
    simp only [verifyAndAdvance, hfile, readRevision, if_true, hseen, seenCurrent, Option.any_none,
      Bool.false_and, Bool.false_eq_true, if_false, hobject rfl, readRemote, concludeAttempt, prior,
      hcheck]

theorem skipsRemote_of_unseen (h : ws.seen = none) : skipsRemote remote revision ws = false := by
  unfold skipsRemote
  split
  · simp [seenCurrent, h]
  · rfl

/-- The local witness alone is above the database. -/
theorem below_of_local {n : Nat} (h : AtLeast ws.file.value n) (hlt : revision < n)
    (hremote : remote = true → ∃ r, readRemote ws.object = .ok r) : Below remote revision ws := by
  obtain ⟨v, hv, hnv⟩ := h
  have hlocal : readRevision ws.file = .ok (some v) := by
    cases hread : readRevision ws.file with
    | error e => simp [LocalFile.value, hread, Except.toOption] at hv
    | ok l => rw [← value_of_readRevision hread, hv]
  have hfound : ∃ r, (if remote then readRemote ws.object else .ok none) = Except.ok r := by
    cases remote with
    | false => exact ⟨none, rfl⟩
    | true => exact hremote rfl
  obtain ⟨r, hr⟩ := hfound
  obtain ⟨p, hp, hvp⟩ := prior_of_local v r
  exact ⟨p, by simp [highest, hlocal, hr, hp, bind, Except.bind], by omega⟩

/-- The remote witness alone is above the database. -/
theorem below_of_remote {n : Nat} (h : AtLeast (remoteValue ws.object) n) (hlt : revision < n)
    (hlocal : ∃ l, readRevision ws.file = .ok l) : Below true revision ws := by
  obtain ⟨v, hv, hnv⟩ := h
  obtain ⟨o, ho, hparse⟩ := Option.bind_eq_some_iff.mp hv
  obtain ⟨l, hl⟩ := hlocal
  have hread : readRemote ws.object = .ok (some ⟨v, o.tag⟩) := by
    simp [readRemote, ho, hparse, Checked.found, bind, Except.bind]
  obtain ⟨p, hp, hvp⟩ := prior_of_remote l ⟨v, o.tag⟩
  have hvp : v ≤ p := hvp
  exact ⟨p, by simp [highest, hl, hread, hp, bind, Except.bind], by omega⟩

end BloomRelay.Restore
