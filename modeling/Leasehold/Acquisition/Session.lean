import Leasehold.Request
import Leasehold.Store

/-! Sessions: where the acquisition of a device's lease stands. Each attempt to acquire or release has
a number, and only the session's ticket of its present number is waited for. -/

namespace Leasehold

inductive Phase
  | idle
  | acquiring
  | bound
  | releasing
deriving DecidableEq, Repr, Inhabited

def Phase.name : Phase → String
  | idle => "idle"
  | acquiring => "acquiring"
  | bound => "bound"
  | releasing => "releasing"

/-- One attempt to acquire a lease, with its request, or to release one. -/
structure Ticket where
  device : Scalar
  generation : Nat
  request : Option Request
deriving DecidableEq, Repr, Inhabited

/-- The acquisition state of one device. -/
structure Session where
  device : Scalar
  phase : Phase
  generation : Nat
  ticket : Option Ticket
  lease : Option LeaseId
deriving DecidableEq, Repr, Inhabited

namespace Session

def fresh (device : Scalar) : Session := ⟨device, .idle, 0, none, none⟩

def isCurrent (s : Session) (t : Ticket) : Bool :=
  s.ticket.isSome && t.generation == s.generation

def inFlight? (s : Session) : Option Ticket :=
  if s.phase = .acquiring then s.ticket else none

def fields (s : Session) (store : Store) : List (String × Value) :=
  [("state", .str s.phase.name), ("generation", .int s.generation),
    ("lease", (s.lease.map fun id => (store.lease id).view).getD .null)]

def view (s : Session) (store : Store) : Value :=
  .object (("device", .scalar s.device) :: s.fields store)

end Session

end Leasehold
