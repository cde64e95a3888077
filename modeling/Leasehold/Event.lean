import Leasehold.Lease

/-! Events: what became of an acquisition or a release on one device. -/

namespace Leasehold

/-- Names a lease object. Two leases with equal content may still be two leases. -/
abbrev LeaseId := Nat

structure NamedLease where
  id : LeaseId
  lease : Lease
deriving DecidableEq, Repr, Inhabited

inductive EventKind
  | acquired
  | released
deriving DecidableEq, Repr, Inhabited

namespace EventKind

def all : List EventKind := [acquired, released]

def name : EventKind → String
  | acquired => "lease-acquired"
  | released => "lease-released"

def ofName? (s : String) : Option EventKind :=
  all.find? fun kind => kind.name == s

end EventKind

structure Event where
  device : Scalar
  kind : EventKind
  success : Bool
  lease : Option NamedLease
  reason : Option String
  requestUuid : Option Bytes
deriving DecidableEq, Repr, Inhabited

namespace Event

def changesLeases (e : Event) : Bool :=
  e.success && e.lease.isSome

/-- An event as observers see it. An empty uuid counts as none. -/
def view (e : Event) : Value :=
  .object [
    ("device", .scalar e.device),
    ("event", .str e.kind.name),
    ("success", .bool e.success),
    ("lease", (e.lease.map fun named => named.lease.view).getD .null),
    ("reason", .optStr e.reason),
    ("request_uuid", .optStr ((e.requestUuid.filter fun uuid => !uuid.isEmpty).map Hex.encode))]

end Event

end Leasehold
