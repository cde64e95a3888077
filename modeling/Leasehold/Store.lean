import Leasehold.Event

/-! The lease store: the devices, the leases that each holds, and the counter that stamps leases. A
lease has an identity besides its content, so devices hold names of leases, and one table keeps what
they name. -/

namespace Leasehold

/-- What every lease name stands for; names are handed out in order. -/
abbrev LeaseTable := List Lease

/-- A network interface and the leases it holds, oldest first. -/
structure Device where
  name : Scalar
  ifindex : Int
  leases : List LeaseId
deriving DecidableEq, Repr, Inhabited

/-- The leases by name, the devices in the order of their registration, and the last number that the
counter gave. -/
structure Store where
  table : LeaseTable
  devices : List Device
  lastSeqno : Int
deriving DecidableEq, Repr, Inhabited

structure UnknownDevice where
  name : Scalar
deriving DecidableEq, Repr

def UnknownDevice.message (u : UnknownDevice) : String :=
  "Unknown device: " ++ u.name.display

namespace LeaseTable

def get (table : LeaseTable) (id : LeaseId) : Lease :=
  (table[id]?).getD default

end LeaseTable

namespace Device

def findLease? (d : Device) (table : LeaseTable) (mode : Mode) (family : Family) :
    Option LeaseId :=
  d.leases.find? fun id => (table.get id).mode = mode && (table.get id).family = family

/-- The first lease with a uuid. The null uuid names none. -/
def leaseByUuid? (d : Device) (table : LeaseTable) (uuid : Bytes) : Option LeaseId :=
  if uuid = nullUuid then none
  else d.leases.find? fun id => (table.get id).uuid = uuid

/-- The lease that another one would replace: the one of its protocol and family. -/
def replaced? (d : Device) (table : LeaseTable) (id : LeaseId) : Option LeaseId :=
  d.findLease? table (table.get id).mode (table.get id).family

/-- Adds a lease at the end, in place of the one of its protocol and family. What goes is the first lease with the
content of that one. -/
def addLease (d : Device) (table : LeaseTable) (id : LeaseId) : Device :=
  let kept := match d.replaced? table id with
    | some old => d.leases.eraseP fun other => table.get other = table.get old
    | none => d.leases
  { d with leases := kept ++ [id] }

def removeLease (d : Device) (id : LeaseId) : Device :=
  { d with leases := d.leases.erase id }

def view (d : Device) (table : LeaseTable) : Value :=
  .object [("name", .scalar d.name), ("ifindex", .int d.ifindex),
    ("leases", .list (d.leases.map fun id => (table.get id).view))]

end Device

namespace Store

def empty : Store := ⟨[], [], 0⟩

def device? (s : Store) (name : Scalar) : Option Device :=
  s.devices.find? fun d => d.name.isKey name

def device (s : Store) (name : Scalar) : Except UnknownDevice Device :=
  match s.device? name with
  | some d => .ok d
  | none => .error ⟨name⟩

/-- Registers a device. A known one stays as it is; a NaN is always a new one. -/
def addDevice (s : Store) (name : Scalar) (ifindex : Int) : Store :=
  if s.devices.any fun d => d.name.same name then s
  else { s with devices := s.devices ++ [⟨name, ifindex, []⟩] }

def ofDevices (devices : List (Scalar × Int)) : Store :=
  devices.foldl (fun s d => s.addDevice d.1 d.2) empty

/-- The next number of the counter, which is never zero. -/
def nextSeqno (s : Store) : Int × Store :=
  (s.lastSeqno + 1, { s with lastSeqno := s.lastSeqno + 1 })

/-- Gives a new lease a name. No device holds it yet. -/
def makeLease (s : Store) (lease : Lease) : LeaseId × Store :=
  (s.table.length, { s with table := s.table ++ [lease] })

def lease (s : Store) (id : LeaseId) : Lease :=
  s.table.get id

def named (s : Store) (id : LeaseId) : NamedLease :=
  ⟨id, s.lease id⟩

/-- Gives a named lease another content, wherever it is held. -/
def setLease (s : Store) (id : LeaseId) (lease : Lease) : Store :=
  { s with table := s.table.set id lease }

def modifyDevice (s : Store) (name : Scalar) (change : Device → Device) : Store :=
  { s with devices := s.devices.map fun d => if d.name.isKey name then change d else d }

/-- The leases that a device holds; an unknown one holds none. -/
def leasesOf (s : Store) (name : Scalar) : List LeaseId :=
  ((s.device? name).map Device.leases).getD []

/-- Adds a lease to a device, and tells which one it replaced. -/
def addLease (s : Store) (name : Scalar) (id : LeaseId) :
    Except UnknownDevice (Option LeaseId × Store) := do
  let d ← s.device name
  return (d.replaced? s.table id, s.modifyDevice name fun d => d.addLease s.table id)

/-- Takes a lease from a device, and tells whether it was there. -/
def removeLease (s : Store) (name : Scalar) (id : LeaseId) : Except UnknownDevice (Bool × Store) := do
  let d ← s.device name
  return (d.leases.contains id, s.modifyDevice name fun d => d.removeLease id)

/-- Every lease with the device that holds it, in the order of devices and leases. -/
def held (s : Store) : List (Scalar × LeaseId) :=
  s.devices.flatMap fun d => d.leases.map fun id => (d.name, id)

def view (s : Store) : Value :=
  .object (s.devices.map fun d =>
    (d.name.display, .list (d.leases.map fun id => (s.lease id).view)))

end Store

end Leasehold
