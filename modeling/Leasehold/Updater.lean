import Leasehold.Scripts
import Leasehold.Store

/-! The apply state of one kind of setting, and the choice among the leases that may drive it. A lease
is known as a source by its sequence number; the sources are marked anew in each pass, and the
heaviest marked one wins, the earliest known among equals. -/

namespace Leasehold

/-- A lease that may drive a kind of setting. It is unmarked between the start of a pass and the moment
at which its lease is found in the store. The weight is that of the lease when it was first found. -/
structure Source where
  seqno : Int
  weight : Nat
  lease : Option LeaseId
deriving DecidableEq, Repr, Inhabited

structure Updater where
  kind : Kind
  sources : List Source
  installedSeqno : Int
  haveBackup : Bool
  enabled : Bool
  scripts : Option Scripts
  fault : Option String
deriving DecidableEq, Repr, Inhabited

/-- The sequence number that stands for no installed lease. -/
def notInstalled : Int := 0

namespace Source

/-- The source's lease was found in this pass. -/
def seen (s : Source) : Bool := s.lease.isSome

/-- A source as callers see it; protocol and family are those that its lease has now. -/
def view (s : Source) (table : LeaseTable) : Value :=
  let lease := s.lease.map table.get
  .object [("seqno", .int s.seqno), ("weight", .int s.weight), ("seen", .bool s.seen),
    ("mode", .optStr (lease.map fun l => l.mode.name)),
    ("family", .optStr (lease.map fun l => l.family.name))]

end Source

namespace Updater

def blank (kind : Kind) : Updater := ⟨kind, [], notInstalled, false, false, none, none⟩

def isInstalled (u : Updater) : Bool := u.installedSeqno ≠ notInstalled

def disable (u : Updater) (reason : String) : Updater :=
  { u with enabled := false, fault := some reason }

/-- Marks the first source of a sequence number with a lease. -/
def markFirst (seqno : Int) (id : LeaseId) : List Source → List Source
  | [] => []
  | s :: rest =>
    if s.seqno = seqno then { s with lease := some id } :: rest else s :: markFirst seqno id rest

def knows (u : Updater) (seqno : Int) : Bool :=
  u.sources.any fun s => s.seqno = seqno

/-- Notes that a lease may drive the kind: marks its source, or adds one. -/
def addSource (u : Updater) (table : LeaseTable) (id : LeaseId) : Updater :=
  let lease := table.get id
  if u.knows lease.seqno then { u with sources := markFirst lease.seqno id u.sources }
  else { u with sources := u.sources ++ [⟨lease.seqno, lease.weight, some id⟩] }

def source? (u : Updater) (seqno : Int) : Option Source :=
  u.sources.find? fun s => s.seqno = seqno

/-- The better of two sources: the heavier one, the first if they weigh the same. -/
def better : Option Source → Source → Option Source
  | none, s => some s
  | some best, s => if best.weight < s.weight then some s else some best

/-- The heaviest marked source, the earliest among equals. -/
def selectSource (u : Updater) : Option Source :=
  (u.sources.filter Source.seen).foldl better none

def clearMarks (u : Updater) : Updater :=
  { u with sources := u.sources.map fun s => { s with lease := none } }

def pruneSources (u : Updater) : Updater :=
  { u with sources := u.sources.filter Source.seen }

def unseenCount (u : Updater) : Nat :=
  (u.sources.filter fun s => !s.seen).length

def command? (u : Updater) (role : Role) : Option (List String) :=
  u.scripts.bind fun s => s.command? role

def view (u : Updater) (table : LeaseTable) : Value :=
  .object [
    ("kind", .str u.kind.name),
    ("enabled", .bool u.enabled),
    ("installed_seqno", .int u.installedSeqno),
    ("have_backup", .bool u.haveBackup),
    ("backup_restore", .bool (u.scripts.any Scripts.hasBackupRestore)),
    ("sources", .list (u.sources.map fun s => s.view table)),
    ("error", .optStr u.fault)]

end Updater

end Leasehold
