import Leasehold.Kind
import Leasehold.Literal
import Leasehold.Text.Hex

/-! Leases: what one source configured for one device, and which host-wide settings it may and can
drive. -/

namespace Leasehold

inductive Mode
  | static
  | dhcp
  | ibft
  | autoconf
deriving DecidableEq, Repr, Inhabited

inductive Family
  | ipv4
  | ipv6
deriving DecidableEq, Repr, Inhabited

namespace Mode

def all : List Mode := [static, dhcp, ibft, autoconf]

def name : Mode → String
  | static => "static"
  | dhcp => "dhcp"
  | ibft => "ibft"
  | autoconf => "auto"

def ofName? (s : String) : Option Mode :=
  all.find? fun mode => mode.name == s

end Mode

namespace Family

def all : List Family := [ipv4, ipv6]

def name : Family → String
  | ipv4 => "ipv4"
  | ipv6 => "ipv6"

def ofName? (s : String) : Option Family :=
  all.find? fun family => family.name == s

end Family

structure ResolverInfo where
  domain : Option String
  servers : List String
  search : List String
deriving DecidableEq, Repr, Inhabited

/-- What one source configured for one device. The sequence number is zero until the lease is
stamped, and so is every byte of the uuid until a request gives it one. -/
structure Lease where
  mode : Mode
  family : Family
  seqno : Int
  uuid : Bytes
  update : Int
  hostname : Option String
  resolver : Option ResolverInfo
  ntpServers : List String
  nisDomain : Option String
  leaseTime : Int
  acquiredAt : Option Moment
deriving DecidableEq, Repr, Inhabited

/-- Sixteen zero bytes stand for no uuid. -/
def nullUuid : Bytes := List.replicate 16 0

/-- A text that is given and not empty. -/
def isGiven : Option String → Bool
  | some s => s != ""
  | none => false

def ResolverInfo.isEmpty (r : ResolverInfo) : Bool :=
  !(isGiven r.domain || !r.servers.isEmpty || !r.search.isEmpty)

namespace Lease

def blank (mode : Mode) : Lease where
  mode := mode
  family := .ipv4
  seqno := 0
  uuid := nullUuid
  update := UpdateMask.standard
  hostname := none
  resolver := none
  ntpServers := []
  nisDomain := none
  leaseTime := 0
  acquiredAt := none

def mayUpdate (lease : Lease) (kind : Kind) : Bool :=
  UpdateMask.permits lease.update kind

def provides (lease : Lease) : Kind → Bool
  | .hostname => isGiven lease.hostname
  | .resolver => lease.resolver.any fun r => !r.isEmpty
  | .ntp => !lease.ntpServers.isEmpty
  | .nis => isGiven lease.nisDomain

/-- The lease may drive a kind and carries a value for it. -/
def canUpdate (lease : Lease) (kind : Kind) : Bool :=
  lease.mayUpdate kind && lease.provides kind

/-- How authoritative a lease is: firmware before a server before everything else, and the older
address family first among equals. -/
def weight (lease : Lease) : Nat :=
  let protocol := match lease.mode with
    | .dhcp => 5
    | .ibft => 10
    | _ => 0
  10 * protocol + (if lease.family = .ipv4 then 1 else 0)

/-- Protocol and family, as records name a lease's origin. -/
def origin (lease : Lease) : String :=
  lease.mode.name ++ "/" ++ lease.family.name

end Lease

namespace ResolverInfo

def view (r : ResolverInfo) : Value :=
  .object [("default_domain", .optStr r.domain), ("dns_servers", .strs r.servers),
    ("dns_search", .strs r.search)]

end ResolverInfo

def Lease.view (lease : Lease) : Value :=
  .object [
    ("mode", .str lease.mode.name),
    ("family", .str lease.family.name),
    ("seqno", .int lease.seqno),
    ("uuid", .str (Hex.encode lease.uuid)),
    ("update", .strs ((UpdateMask.kinds lease.update).map Kind.name)),
    ("hostname", .optStr lease.hostname),
    ("resolver", (lease.resolver.map ResolverInfo.view).getD .null),
    ("ntp_servers", .strs lease.ntpServers),
    ("nis_domain", .optStr lease.nisDomain),
    ("lease_time", .int lease.leaseTime),
    ("acquired_at", .optStr (lease.acquiredAt.map Moment.text))]

end Leasehold
