import BloomRelay.Restore.Witness
import BloomRelay.Lib.Run
import Mathlib.Logic.Function.Basic

/-!
# `verify_and_advance` among others (`restore.rs`)

Any number of calls, by any number of processes on any number of hosts. The processes of a host share
its witness file and its lock; the hosts share the database and the remote object. A step is one
atomic action of one call (a read, a conditional write, a rename, taking or leaving the lock), a commit
of the database, or the late arrival of a remote write whose caller is gone. A call can fail or be
dropped at every point where the code can.

The remote store is assumed to apply a write only if the tag it names is still the current one, and to
give one tag to one content; `versions` keeps every version there ever was. That a reported conflict
means that nothing was written is an assumption of its own, `Fleet.ConflictsUnwritten`.
-/

namespace BloomRelay.Restore

/-- Who runs what: the process of a call, the host of a process, whether it has a remote witness, and
how it reads the database. -/
structure Fleet (D H P C : Type) where
  revision : D → Nat
  pristine : D → Bool
  process : C → P
  host : P → H
  remote : P → Bool
  /-- The remote store may report a conflict for a write it has applied, as it does if a write is sent
  again on the way and only the second answer arrives. -/
  conflictWrites : Bool

namespace Fleet

variable {D H P C : Type} (F : Fleet D H P C)

def hostOf (c : C) : H := F.host (F.process c)
def remoteOf (c : C) : Bool := F.remote (F.process c)

/-- `Conflict` is reported only for a write that was not applied, as `RemoteWitness::write` promises. -/
def ConflictsUnwritten : Prop := F.conflictWrites = false

end Fleet

/-- Where a call is. `left` counts the attempts after this one; `revision` and `local_` are the values
the attempt has read, `remote` is what the remote answered, if it was asked. -/
inductive Pc where
  | locking
  | attempt (left : Nat)
  | gotRevision (left revision : Nat)
  | gotLocal (left revision : Nat) (local_ : Option Nat)
  | needRemote (left revision : Nat) (local_ : Option Nat)
  | gotRemote (left revision : Nat) (local_ : Option Nat) (remote : Option RemoteRevision)
  | needPristine (left revision : Nat) (local_ : Option Nat) (remote : Option RemoteRevision)
  | checked (left revision : Nat) (local_ : Option Nat) (remote : Option RemoteRevision)
  | conflicted (left : Nat)
  | settled (revision : Nat) (local_ : Option Nat) (current : RemoteRevision)
  | finishing (revision : Nat) (local_ : Option Nat)
  | done (result : Except WitnessError Unit)
  | dead
  deriving DecidableEq

/-- The call is past the lock and has not returned. -/
def Pc.holdsLock : Pc → Bool
  | .locking | .done _ | .dead => false
  | _ => true

/-- A conditional write on its way to the remote store. -/
structure RemoteRequest (C : Type) where
  caller : C
  revision : Nat
  replacing : Option RemoteRevision

structure World (D H P C : Type) where
  db : D
  file : H → LocalFile
  lock : H → Option C
  object : Option RemoteObject
  /-- Every version the remote object ever had. -/
  versions : List RemoteObject
  /-- Writes whose caller did not wait for the answer. -/
  inflight : List (RemoteRequest C)
  seen : P → Option RemoteRevision
  pc : C → Option Pc
  /-- The database revision when the call started. -/
  began : C → Nat

/-- What a step was: a commit, or the doing of a call. -/
inductive Label (C : Type) where
  | commit
  | start (c : C)
  | act (c : C)
  | deliver (c : C)
  deriving DecidableEq

/-- The call a step belongs to. -/
def Label.caller? {C : Type} : Label C → Option C
  | .commit => none
  | .start c | .act c | .deliver c => some c

section Step

variable {D H P C : Type} [DecidableEq H] [DecidableEq P] [DecidableEq C]

namespace World

def goto (w : World D H P C) (c : C) (pc : Pc) : World D H P C :=
  { w with pc := Function.update w.pc c (some pc) }

def setLock (w : World D H P C) (h : H) (holder : Option C) : World D H P C :=
  { w with lock := Function.update w.lock h holder }

/-- The call ends and leaves the lock. -/
def finish (F : Fleet D H P C) (w : World D H P C) (c : C) (pc : Pc) : World D H P C :=
  (w.setLock (F.hostOf c) none).goto c pc

def setFile (w : World D H P C) (h : H) (f : LocalFile) : World D H P C :=
  { w with file := Function.update w.file h f }

def setSeen (w : World D H P C) (p : P) (r : Option RemoteRevision) : World D H P C :=
  { w with seen := Function.update w.seen p r }

/-- The remote store applies a write. -/
def putObject (w : World D H P C) (o : RemoteObject) : World D H P C :=
  { w with object := some o, versions := o :: w.versions }

def send (w : World D H P C) (q : RemoteRequest C) : World D H P C :=
  { w with inflight := q :: w.inflight }

/-- A tag the store may give to `contents`: no other content had it. -/
def TagFor (w : World D H P C) (contents : Bytes) (tag : String) : Prop :=
  ∀ o ∈ w.versions, o.tag = tag → o.contents = contents

end World

/-- The steps of call `c`. -/
inductive CallStep (F : Fleet D H P C) (c : C) (w : World D H P C) : World D H P C → Prop where
  /-- The lock file cannot be opened, or the lock is not free in time. -/
  | lockFailed (h : w.pc c = some .locking) : CallStep F c w (w.goto c (.done (.error .io)))
  | locked (h : w.pc c = some .locking) (hfree : w.lock (F.hostOf c) = none) :
      CallStep F c w ((w.setLock (F.hostOf c) (some c)).goto c (.attempt remoteAttempts))
  | exhausted (h : w.pc c = some (.attempt 0)) :
      CallStep F c w (w.finish F c (.done (.error .remoteContention)))
  | revisionRead {n : Nat} (h : w.pc c = some (.attempt (n + 1))) :
      CallStep F c w (w.goto c (.gotRevision n (F.revision w.db)))
  | revisionFailed {n : Nat} (h : w.pc c = some (.attempt (n + 1))) :
      CallStep F c w (w.finish F c (.done (.error .store)))
  | localRead {n R : Nat} {L : Option Nat} (h : w.pc c = some (.gotRevision n R))
      (hL : readRevision (w.file (F.hostOf c)) = .ok L) :
      CallStep F c w (w.goto c (.gotLocal n R L))
  | localFailed {n R : Nat} (h : w.pc c = some (.gotRevision n R)) :
      CallStep F c w (w.finish F c (.done (.error .io)))
  | noRemote {n R : Nat} {L : Option Nat} (h : w.pc c = some (.gotLocal n R L))
      (hr : F.remoteOf c = false) : CallStep F c w (w.goto c (.gotRemote n R L none))
  /-- The process saw this revision at the remote before, and the file holds it. -/
  | skipped {n R : Nat} {L : Option Nat} (h : w.pc c = some (.gotLocal n R L))
      (hr : F.remoteOf c = true) (hs : seenCurrent R L (w.seen (F.process c)) = true) :
      CallStep F c w (w.finish F c (.done (.ok ())))
  | notSkipped {n R : Nat} {L : Option Nat} (h : w.pc c = some (.gotLocal n R L))
      (hr : F.remoteOf c = true) (hs : seenCurrent R L (w.seen (F.process c)) = false) :
      CallStep F c w (w.goto c (.needRemote n R L))
  | remoteRead {n R : Nat} {L : Option Nat} {r : Option RemoteRevision}
      (h : w.pc c = some (.needRemote n R L)) (hread : readRemote w.object = .ok r) :
      CallStep F c w (w.goto c (.gotRemote n R L r))
  | remoteFailed {n R : Nat} {L : Option Nat} (h : w.pc c = some (.needRemote n R L)) :
      CallStep F c w (w.finish F c (.done (.error .io)))
  | missing {n R : Nat} {L : Option Nat} {r : Option RemoteRevision}
      (h : w.pc c = some (.gotRemote n R L r)) (hp : prior L r = none) (hR : R ≠ 1) :
      CallStep F c w (w.finish F c (.done (.error .missing)))
  | askPristine {n R : Nat} {L : Option Nat} {r : Option RemoteRevision}
      (h : w.pc c = some (.gotRemote n R L r)) (hp : prior L r = none) (hR : R = 1) :
      CallStep F c w (w.goto c (.needPristine n R L r))
  | pristine {n R : Nat} {L : Option Nat} {r : Option RemoteRevision}
      (h : w.pc c = some (.needPristine n R L r)) (hdb : F.pristine w.db = true) :
      CallStep F c w (w.goto c (.checked n R L r))
  | established {n R : Nat} {L : Option Nat} {r : Option RemoteRevision}
      (h : w.pc c = some (.needPristine n R L r)) (hdb : F.pristine w.db = false) :
      CallStep F c w (w.finish F c (.done (.error .missing)))
  | pristineFailed {n R : Nat} {L : Option Nat} {r : Option RemoteRevision}
      (h : w.pc c = some (.needPristine n R L r)) :
      CallStep F c w (w.finish F c (.done (.error .store)))
  | stale {n R p : Nat} {L : Option Nat} {r : Option RemoteRevision}
      (h : w.pc c = some (.gotRemote n R L r)) (hp : prior L r = some p) (hlt : R < p) :
      CallStep F c w (w.finish F c (.done (.error .staleDatabase)))
  | fresh {n R p : Nat} {L : Option Nat} {r : Option RemoteRevision}
      (h : w.pc c = some (.gotRemote n R L r)) (hp : prior L r = some p) (hle : p ≤ R) :
      CallStep F c w (w.goto c (.checked n R L r))
  | localOnly {n R : Nat} {L : Option Nat} {r : Option RemoteRevision}
      (h : w.pc c = some (.checked n R L r)) (hr : F.remoteOf c = false) :
      CallStep F c w (w.goto c (.finishing R L))
  | remoteCurrent {n R : Nat} {L : Option Nat} {r : RemoteRevision}
      (h : w.pc c = some (.checked n R L (some r))) (hr : F.remoteOf c = true)
      (hR : r.revision = R) : CallStep F c w (w.goto c (.settled R L r))
  | remoteWritten {n R : Nat} {L : Option Nat} {r : Option RemoteRevision} {tag : String}
      (h : w.pc c = some (.checked n R L r)) (hr : F.remoteOf c = true)
      (hne : r.map (·.revision) ≠ some R) (hcas : writeAllowed w.object r)
      (htag : w.TagFor (revisionContents R) tag) :
      CallStep F c w ((w.putObject ⟨revisionContents R, tag⟩).goto c (.settled R L ⟨R, tag⟩))
  /-- Another writer was faster; nothing is written. -/
  | conflict {n R : Nat} {L : Option Nat} {r : Option RemoteRevision}
      (h : w.pc c = some (.checked n R L r)) (hr : F.remoteOf c = true)
      (hne : r.map (·.revision) ≠ some R) : CallStep F c w (w.goto c (.conflicted n))
  /-- The same answer for a write that was applied. -/
  | conflictWritten {n R : Nat} {L : Option Nat} {r : Option RemoteRevision} {tag : String}
      (h : w.pc c = some (.checked n R L r)) (hr : F.remoteOf c = true)
      (hne : r.map (·.revision) ≠ some R) (hcas : writeAllowed w.object r)
      (htag : w.TagFor (revisionContents R) tag) (hstore : F.conflictWrites = true) :
      CallStep F c w ((w.putObject ⟨revisionContents R, tag⟩).goto c (.conflicted n))
  /-- The write fails on the way; it may still arrive. -/
  | writeLost {n R : Nat} {L : Option Nat} {r : Option RemoteRevision}
      (h : w.pc c = some (.checked n R L r)) (hr : F.remoteOf c = true)
      (hne : r.map (·.revision) ≠ some R) :
      CallStep F c w ((w.send ⟨c, R, r⟩).finish F c (.done (.error .io)))
  | seenCleared {n : Nat} (h : w.pc c = some (.conflicted n)) :
      CallStep F c w ((w.setSeen (F.process c) none).goto c (.attempt n))
  | seenStored {R : Nat} {L : Option Nat} {r : RemoteRevision}
      (h : w.pc c = some (.settled R L r)) :
      CallStep F c w ((w.setSeen (F.process c) (some r)).goto c (.finishing R L))
  | localCurrent {R : Nat} {L : Option Nat} (h : w.pc c = some (.finishing R L))
      (hL : L = some R) : CallStep F c w (w.finish F c (.done (.ok ())))
  | localWritten {R : Nat} {L : Option Nat} (h : w.pc c = some (.finishing R L))
      (hL : L ≠ some R) :
      CallStep F c w ((w.setFile (F.hostOf c) (writtenFile R)).finish F c (.done (.ok ())))
  | localWriteFailed {R : Nat} {L : Option Nat} (h : w.pc c = some (.finishing R L)) :
      CallStep F c w (w.finish F c (.done (.error .io)))
  /-- The file is in place, but its directory could not be synced. -/
  | localSyncFailed {R : Nat} {L : Option Nat} (h : w.pc c = some (.finishing R L))
      (hL : L ≠ some R) :
      CallStep F c w ((w.setFile (F.hostOf c) (writtenFile R)).finish F c (.done (.error .io)))
  /-- The call is dropped, or its process dies, before it has the lock. -/
  | diedWaiting (h : w.pc c = some .locking) : CallStep F c w (w.goto c .dead)
  /-- The same later: the lock goes with the call. -/
  | died {pc : Pc} (h : w.pc c = some pc) (hlock : pc.holdsLock = true) :
      CallStep F c w (w.finish F c .dead)
  /-- The same while a remote write is on its way. -/
  | diedWriting {n R : Nat} {L : Option Nat} {r : Option RemoteRevision}
      (h : w.pc c = some (.checked n R L r)) (hr : F.remoteOf c = true)
      (hne : r.map (·.revision) ≠ some R) :
      CallStep F c w ((w.send ⟨c, R, r⟩).finish F c .dead)

/-- The steps of the whole fleet. -/
inductive Step (F : Fleet D H P C) (w : World D H P C) : Label C → World D H P C → Prop where
  /-- The database commits; its revision, a positive `BIGINT`, never goes down. -/
  | commit (d : D) (hle : F.revision w.db ≤ F.revision d) (hlt : F.revision d < 2 ^ 63) :
      Step F w .commit { w with db := d }
  | start (c : C) (h : w.pc c = none) :
      Step F w (.start c)
        ({ w with began := Function.update w.began c (F.revision w.db) }.goto c .locking)
  | act (c : C) {w' : World D H P C} (h : CallStep F c w w') : Step F w (.act c) w'
  /-- A write that nobody waits for arrives. -/
  | deliver (q : RemoteRequest C) (tag : String) (hq : q ∈ w.inflight)
      (hcas : writeAllowed w.object q.replacing)
      (htag : w.TagFor (revisionContents q.revision) tag) :
      Step F w (.deliver q.caller) (w.putObject ⟨revisionContents q.revision, tag⟩)

/-- A fleet before its first call: no process has seen a remote revision yet. -/
structure World.Initial (F : Fleet D H P C) (w : World D H P C) : Prop where
  bound : F.revision w.db < 2 ^ 63
  lock : ∀ h, w.lock h = none
  versions : w.versions = w.object.toList
  inflight : w.inflight = []
  seen : ∀ p, w.seen p = none
  pc : ∀ c, w.pc c = none

end Step

end BloomRelay.Restore
