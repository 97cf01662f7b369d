import BloomRelay.Lib.Checked
import BloomRelay.Protocol.Basic

/-!
# The restore witness (`bloom-relay-store`, `restore.rs` and `s3_witness.rs`)

A high-water mark of the database revision, kept in a file on the host and, when one is configured, in
an object outside the host. This module holds what is at rest (the file, the object, their common text
format) and `verifyAndAdvance`, the call as it runs when nothing else runs beside it.
`Restore.Machine` has the same call step by step, with everything that can come in between.
-/

namespace BloomRelay.Restore

open Checked

/-- `REMOTE_ATTEMPTS`. -/
def remoteAttempts : Nat := 4

/-- `WitnessError`; an I/O or database error keeps no detail. -/
inductive WitnessError where
  | missing
  | staleDatabase
  | remoteContention
  | io
  | store
  deriving DecidableEq

/-- The text of the error. -/
def WitnessError.message : WitnessError → String
  | .missing => "restore witness missing for established database"
  | .staleDatabase => "database revision below external restore witness"
  | .remoteContention => "remote restore witness kept changing during a write"
  | .io => "restore witness storage unavailable"
  | .store => "database unavailable"

/-- A revision read from the remote witness, with the tag the next conditional write must name. -/
structure RemoteRevision where
  revision : Nat
  versionTag : String
  deriving DecidableEq

/-! ## The text of a witness -/

/-- `trim_end_matches('\n')`. -/
def trimNewlines (cs : List Char) : List Char := (cs.reverse.dropWhile (· == '\n')).reverse

/-- One decimal revision, optionally newline-terminated. A byte outside ASCII fails the decoding or
the parse, with the same error. -/
def parseRevision (bytes : Bytes) : Option Nat :=
  if 24 < bytes.length then none
  else Decimal.parse? (2 ^ 64) (trimNewlines (bytes.map fun b => Char.ofNat b.toNat))

/-- The bytes of a `u64` in decimal, and a newline. -/
def revisionContents (revision : Nat) : Bytes :=
  ((Nat.toDigits 10 revision).map fun c => UInt8.ofNat c.toNat) ++ [10]

/-! ## The local file -/

/-- What is at the witness path. -/
inductive LocalFile where
  | absent
  | notAFile
  | file (mode : Nat) (contents : Bytes)
  deriving DecidableEq

/-- `read_revision`: no file is no revision; a file others may touch is refused. -/
def readRevision : LocalFile → Except WitnessError (Option Nat)
  | .absent => .ok none
  | .notAFile => .error .io
  | .file mode contents =>
    if mode &&& 7 ≠ 0 then .error .io
    else match parseRevision contents with
      | some revision => .ok (some revision)
      | none => .error .io

/-- What `write_revision` renames into place: a file of mode `0660`. -/
def writtenFile (revision : Nat) : LocalFile := .file 432 (revisionContents revision)

/-- The local witness value. -/
def LocalFile.value (f : LocalFile) : Option Nat := (readRevision f).toOption.join

/-! ## The remote object -/

/-- The object in the bucket and its `ETag`. -/
structure RemoteObject where
  contents : Bytes
  tag : String
  deriving DecidableEq

/-- `S3Witness::read`. -/
def readRemote : Option RemoteObject → Except WitnessError (Option RemoteRevision)
  | none => .ok none
  | some object => do
    let revision ← found (parseRevision object.contents) .io
    .ok (some ⟨revision, object.tag⟩)

/-- The condition of `S3Witness::write`: `If-Match` on the tag that was read, or `If-None-Match: *`. -/
def writeAllowed (object : Option RemoteObject) (replacing : Option RemoteRevision) : Prop :=
  object.map (·.tag) = replacing.map (·.versionTag)

instance (object : Option RemoteObject) (replacing : Option RemoteRevision) :
    Decidable (writeAllowed object replacing) :=
  inferInstanceAs (Decidable (_ = _))

/-- The remote witness value. -/
def remoteValue (object : Option RemoteObject) : Option Nat :=
  object.bind fun o => parseRevision o.contents

/-- `local.max(remote_revision)`: the highest witness there is. -/
def prior (local_ : Option Nat) (remote : Option RemoteRevision) : Option Nat :=
  match local_, remote with
  | none, none => none
  | some l, none => some l
  | none, some r => some r.revision
  | some l, some r => some (max l r.revision)

/-! ## A call that runs alone -/

/-- The witnesses of one process: its host's file, the object, and the last remote revision the
process saw. -/
structure Witnesses where
  file : LocalFile
  object : Option RemoteObject
  seen : Option RemoteRevision
  deriving DecidableEq

/-- The remote part of an attempt whose write nobody contests; `etag` is the tag the store gives. -/
def advanceRemote (etag : Bytes → String) (revision : Nat) (remote : Option RemoteRevision)
    (ws : Witnesses) : Witnesses :=
  match remote with
  | some r =>
    if r.revision = revision then { ws with seen := some r }
    else { ws with
      object := some ⟨revisionContents revision, etag (revisionContents revision)⟩
      seen := some ⟨revision, etag (revisionContents revision)⟩ }
  | none => { ws with
      object := some ⟨revisionContents revision, etag (revisionContents revision)⟩
      seen := some ⟨revision, etag (revisionContents revision)⟩ }

/-- The check against the highest witness: with none, only a new database may start. -/
def checkPrior (revision : Nat) (pristine : Bool) (p : Option Nat) : Except WitnessError Unit :=
  match p with
  | none => require (revision = 1 ∧ pristine = true) .missing
  | some value => require (value ≤ revision) .staleDatabase

/-- The process saw exactly this revision at the remote, and the file holds it too. -/
def seenCurrent (revision : Nat) (local_ : Option Nat) (seen : Option RemoteRevision) : Bool :=
  seen.any (fun s => s.revision = revision) && local_ = some revision

/-- The rest of an attempt that has read both witnesses. -/
def concludeAttempt (etag : Bytes → String) (remote : Bool) (revision : Nat) (pristine : Bool)
    (local_ : Option Nat) (found : Option RemoteRevision) (ws : Witnesses) :
    Except WitnessError Unit × Witnesses :=
  match checkPrior revision pristine (prior local_ found) with
  | .error e => (.error e, ws)
  | .ok () =>
    let ws := if remote then advanceRemote etag revision found ws else ws
    (.ok (), if local_ = some revision then ws else { ws with file := writtenFile revision })

/-- The cached remote revision lets the call return without a remote read. -/
def skipsRemote (remote : Bool) (revision : Nat) (ws : Witnesses) : Bool :=
  match readRevision ws.file with
  | .ok local_ => remote && seenCurrent revision local_ ws.seen
  | .error _ => false

/-- The highest witness a process can read. -/
def highest (remote : Bool) (ws : Witnesses) : Except WitnessError (Option Nat) := do
  let local_ ← readRevision ws.file
  let found ← (if remote then readRemote ws.object else .ok none)
  .ok (prior local_ found)

/-- The database revision is strictly below the restore witness. -/
def Below (remote : Bool) (revision : Nat) (ws : Witnesses) : Prop :=
  ∃ p, highest remote ws = .ok (some p) ∧ revision < p

/-- `RestoreWitness::verify_and_advance` with no other writer and no failing device: its first attempt
decides. `remote` says whether a remote witness is configured. -/
def verifyAndAdvance (etag : Bytes → String) (remote : Bool) (revision : Nat) (pristine : Bool)
    (ws : Witnesses) : Except WitnessError Unit × Witnesses :=
  match readRevision ws.file with
  | .error e => (.error e, ws)
  | .ok local_ =>
    if remote then
      if seenCurrent revision local_ ws.seen then (.ok (), ws)
      else match readRemote ws.object with
        | .error e => (.error e, ws)
        | .ok found => concludeAttempt etag true revision pristine local_ found ws
    else concludeAttempt etag false revision pristine local_ none ws

end BloomRelay.Restore
