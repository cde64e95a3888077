import Leasehold.Acquisition.Static

/-! Negotiators: who is asked to obtain leases and to give them back. Static assignment works on its own
as long as a loop is running; any other negotiator answers as it likes, and reports by itself. -/

namespace Leasehold

/-- A negotiator, by what it answers when it is asked to start or to release. -/
inductive Negotiator
  | static (running : Bool)
  | other (start release : Reply)
deriving DecidableEq, Repr, Inhabited

namespace Negotiator

def start : Negotiator → Reply
  | static running => Static.reply running
  | other start _ => start

def release : Negotiator → Reply
  | static running => Static.reply running
  | other _ release => release

def advance {ε α : Type} (n : Negotiator) (o : Outcome ε α) (line : List Callback) :
    Service × List Callback :=
  match n with
  | static running => Static.advance running o line
  | other _ _ => (o.service, line)

def accepted (n : Negotiator) (effects : List Effect) : List Ticket :=
  effects.filterMap fun
    | .start t => if n.start = .accepted then some t else none
    | .release t _ => if n.release = .accepted then some t else none
    | _ => none

/-- A call of the negotiator, marked if it was not accepted. -/
def entry (name : String) (reply : Reply) (t : Ticket) : String × Ticket :=
  (if reply = .accepted then name else name ++ "-failed", t)

def diary (n : Negotiator) (effects : List Effect) : List (String × Ticket) :=
  effects.filterMap fun
    | .start t => some (entry "start" n.start t)
    | .release t _ => some (entry "release" n.release t)
    | .cancel t => some ("cancel", t)
    | .publish _ => none

end Negotiator

end Leasehold
