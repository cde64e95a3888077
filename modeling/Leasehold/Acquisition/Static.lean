import Leasehold.Acquisition.Service

/-! Static assignment: the content of a lease comes from the request itself. There is nothing to wait
for, yet the outcome is not reported before the call that asked for it has returned: it waits in line
for its turn. -/

namespace Leasehold

/-- An outcome that waits to be reported. -/
inductive Callback
  | obtained (t : Ticket) (lease : LeaseId)
  | returned (t : Ticket)
deriving DecidableEq, Repr

namespace Static

/-- The answer to every call. Outcomes need a loop that is running to report them. -/
def reply (running : Bool) : Reply :=
  if running then .accepted else .refused "no event loop running"

def resolver? (r : Request) : Option ResolverInfo :=
  if r.servers.isEmpty && r.search.isEmpty && !isGiven r.domain then none
  else some ⟨r.domain, r.servers, r.search⟩

def lease (r : Request) : Lease :=
  { Lease.blank .static with
    family := r.family
    hostname := r.hostname
    resolver := resolver? r
    leaseTime := r.leaseTime.getD 0 }

def follow (line : Service × List Callback) : Effect → Service × List Callback
  | .start t =>
    match t.request with
    | some r =>
      let (id, store) := line.1.store.makeLease (lease r)
      ({ line.1 with store := store }, line.2 ++ [.obtained t id])
    | none => line
  | .release t _ => (line.1, line.2 ++ [.returned t])
  | _ => line

def advance {ε α : Type} (running : Bool) (o : Outcome ε α) (line : List Callback) :
    Service × List Callback :=
  if running then o.effects.foldl follow (o.service, line) else (o.service, line)

def report (s : Service) (now : Moment) : Callback → Service × List Effect
  | .obtained t id => s.completeAcquire t id now
  | .returned t => s.completeRelease t

end Static

end Leasehold
