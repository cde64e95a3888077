import Leasehold.Lease
import Leasehold.Scripts
import Leasehold.Updater

/-! What a reconciliation pass reports: what it set out to do about each kind of setting in service, and
how that ended. -/

namespace Leasehold

inductive Intent
  | none
  | install
  | restore
deriving DecidableEq, Repr, Inhabited

def Intent.name : Intent → String
  | none => "none"
  | install => "install"
  | restore => "restore"

/-- How a pass dealt with one kind: the scripts that ran to an end, and the lease that is installed
afterwards. -/
structure KindOutcome where
  kind : Kind
  intent : Intent
  success : Bool
  seqno : Int
  scriptsRun : List Role
  error : Option String
deriving DecidableEq, Repr, Inhabited

namespace KindOutcome

def untouched (u : Updater) : KindOutcome :=
  ⟨u.kind, .none, true, u.installedSeqno, [], none⟩

def failed (o : KindOutcome) (error : String) : KindOutcome :=
  { o with success := false, error := some error }

def view (o : KindOutcome) : Value :=
  .object [("kind", .str o.kind.name), ("action", .str o.intent.name), ("success", .bool o.success),
    ("seqno", .int o.seqno), ("scripts_run", .strs (o.scriptsRun.map Role.name)),
    ("error", .optStr o.error)]

end KindOutcome

/-- The outcomes of the kinds that were in service, in the order in which they were dealt with. -/
structure PassResult where
  outcomes : List KindOutcome
deriving DecidableEq, Repr, Inhabited

namespace PassResult

def success (r : PassResult) : Bool :=
  r.outcomes.all KindOutcome.success

/-- The kinds whose settings could not be brought in line. -/
def failedKinds (r : PassResult) : List Kind :=
  (r.outcomes.filter fun o => !o.success).map KindOutcome.kind

def scriptCount (r : PassResult) : Nat :=
  (r.outcomes.flatMap KindOutcome.scriptsRun).length

/-- The outcome of a kind, if it was in service. -/
def outcome? (r : PassResult) (kind : Kind) : Option KindOutcome :=
  r.outcomes.find? fun o => o.kind = kind

def view (r : PassResult) : Value :=
  .object [("success", .bool r.success), ("outcomes", .list (r.outcomes.map KindOutcome.view))]

/-- The result with the outcome of every kind, null for those out of service. -/
def viewByKind (r : PassResult) : Value :=
  .object [("success", .bool r.success),
    ("kinds", .list (Kind.all.map fun kind => ((r.outcome? kind).map KindOutcome.view).getD .null))]

end PassResult

end Leasehold
