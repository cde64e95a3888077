import Leasehold.Audit
import Leasehold.Reconciliation.Outcome
import Leasehold.Registry

/-! One reconciliation pass. It notes which leases may drive which kinds, and then deals with the kinds
one after the other: the best lease's settings are installed unless they already are, and the host's
own settings come back when no lease is left. A pass stops at each script run until its result is
given; whatever happens to leases and registry in between, the pass goes on from what it finds. -/

namespace Leasehold

structure Call where
  kind : Kind
  role : Role
  argv : List String
  artifact : Option String
  timeout : Option Number
deriving DecidableEq, Repr, Inhabited

def Call.view (c : Call) : Value :=
  .object [("kind", .str c.kind.name), ("action", .str c.role.name), ("argv", .strs c.argv),
    ("artifact", .optStr c.artifact),
    ("timeout", (c.timeout.map fun n => .scalar n.toScalar).getD .null)]

/-- How a script run ended: with a result, or by a breakdown. -/
inductive RunResult
  | ended (success : Bool) (output : String) (error : Option String)
  | crashed (fault : ApplyFault)
deriving DecidableEq, Repr, Inhabited

/-- What a script run is part of. A backup is followed by the installation that it makes safe. -/
inductive Work
  | restore
  | backup (source : Source) (artifact : String)
  | install (source : Source) (artifact : String)
deriving DecidableEq, Repr

/-- A kind whose script is running, and its outcome so far. -/
structure Running where
  call : Call
  work : Work
  outcome : KindOutcome
deriving DecidableEq, Repr

/-- What comes next for a kind: nothing more, or a script run. -/
inductive Next
  | done (outcome : KindOutcome)
  | run (running : Running)
deriving DecidableEq, Repr

/-- A pass under way: the device on which each lease was found, by sequence number, the outcomes so
far, and the script run that it waits for with the kinds that come afterwards. -/
structure Pass where
  origins : List (Int × Scalar)
  outcomes : List KindOutcome
  waiting : Option (Running × List Kind)
deriving Repr, Inhabited

/-- What a stretch of a pass leaves, from one script run to the next. -/
structure Stretch where
  registry : Registry
  pass : Pass
  changes : List Audit.Change
  log : List Log.Record

def Updater.call (u : Updater) (role : Role) (argv : List String) (artifact : Option String) : Call :=
  ⟨u.kind, role, argv, artifact, u.scripts.bind Scripts.timeout⟩

def Updater.afterFault (u : Updater) : ApplyFault → Updater
  | .unsupported message => u.disable message
  | .script _ | .other _ => u

/-- Marks the sources whose leases are in the store and may and can drive the kind. -/
def Updater.collect (u : Updater) (store : Store) : Updater :=
  let qualifying := (store.held.map (·.2)).filter fun id => (store.lease id).canUpdate u.kind
  qualifying.foldl (fun u id => u.addSource store.table id) u.clearMarks

def Source.content (s : Source) (table : LeaseTable) : Lease :=
  (s.lease.map table.get).getD default

namespace Pass

def complaint (kind : Kind) : ApplyFault → Log.Record
  | .script message => Log.error message
  | .unsupported message => Log.error (message ++ "; disabling " ++ kind.name ++ " updater")
  | .other _ => Log.error ("Updating " ++ kind.name ++ " settings failed")

/-- What follows a fault: the kind's turn is over, and a kind that is unsupported goes out of service. -/
def abandon (u : Updater) (outcome : KindOutcome) (fault : ApplyFault) : Next × Updater × List Log.Record :=
  (.done (outcome.failed fault.message), u.afterFault fault, [complaint u.kind fault])

def installing (u : Updater) (source : Source) (artifact : String) (outcome : KindOutcome) : Running :=
  ⟨u.call .install ((u.command? .install).getD []) (some artifact), .install source artifact, outcome⟩

/-- The first script run on the way to an installation: a backup, unless one is held or the kind has
no script for it. -/
def preparing (u : Updater) (source : Source) (artifact : String) (outcome : KindOutcome) : Running :=
  match u.haveBackup, u.command? .backup with
  | false, some argv => ⟨u.call .backup argv none, .backup source artifact, outcome⟩
  | _, _ => installing u source artifact outcome

/-- What to do about a kind whose best source is not installed. The artifact is made before any script
touches the host. -/
def planInstall (builders : Artifact.Builders) (table : LeaseTable) (u : Updater) (source : Source) :
    Next × Updater × List Log.Record :=
  let outcome := { KindOutcome.untouched u with intent := .install }
  match builders.build u.kind (source.content table) with
  | .ok artifact => (.run (preparing u source artifact outcome), u, [])
  | .error fault => abandon u outcome fault

/-- What to do about a kind that no lease drives. -/
def planRestore (u : Updater) : Next :=
  let outcome := KindOutcome.untouched u
  match u.haveBackup, u.command? .restore with
  | true, some argv =>
    .run ⟨u.call .restore argv none, .restore, { outcome with intent := .restore }⟩
  | _, _ => .done outcome

def plan (builders : Artifact.Builders) (table : LeaseTable) (u : Updater) :
    Next × Updater × List Log.Record :=
  match u.selectSource with
  | none => (planRestore u, u, [])
  | some source =>
    if source.seqno = u.installedSeqno then (.done (.untouched u), u, [])
    else planInstall builders table u source

def Work.verb : Work → String
  | .restore => "restore current"
  | .backup _ _ => "back up current"
  | .install _ _ => "install new"

def failure (kind : Kind) (work : Work) (error : Option String) : String :=
  "failed to " ++ Work.verb work ++ " " ++ kind.name ++ " settings: " ++ error.getD "None"

/-- The audit record of a script run. An installation names the lease that it came from. -/
def change (table : LeaseTable) (origins : List (Int × Scalar)) (u : Updater) (r : Running)
    (success : Bool) (output : String) (error : Option String) : Audit.Change :=
  let source := match r.work with
    | .install source _ => some source
    | _ => none
  { kind := u.kind.name
    operation := r.call.role.name
    success := success
    seqno := (source.map Source.seqno).getD u.installedSeqno
    device := source.bind fun s => origins.lookup s.seqno
    source := source.map fun s => (s.content table).origin
    output := output
    error := error }

def succeed (u : Updater) (r : Running) (outcome : KindOutcome) : Next × Updater :=
  match r.work with
  | .restore =>
    (.done { outcome with seqno := notInstalled },
      { u with haveBackup := false, installedSeqno := notInstalled })
  | .backup source artifact =>
    let u := { u with haveBackup := true }
    (.run (installing u source artifact outcome), u)
  | .install source _ =>
    (.done { outcome with seqno := source.seqno }, { u with installedSeqno := source.seqno })

/-- What follows a script run: the next step, the updater, the audit record, and what is said. -/
def conclude (table : LeaseTable) (origins : List (Int × Scalar)) (u : Updater) (r : Running) :
    RunResult → Next × Updater × List Audit.Change × List Log.Record
  | .crashed fault =>
    let (next, u, log) := abandon u r.outcome fault
    (next, u, [], log)
  | .ended success output error =>
    let outcome := { r.outcome with scriptsRun := r.outcome.scriptsRun ++ [r.call.role] }
    let made := change table origins u r success output error
    match made.unwritable? with
    | some message =>
      let (next, u, log) := abandon u outcome (.other message)
      (next, u, [], log)
    | none =>
      if success then
        let (next, u) := succeed u r outcome
        (next, u, [made], [])
      else
        let (next, u, log) := abandon u outcome (.script (failure u.kind r.work error))
        (next, u, [made], log)

def summary (outcomes : List KindOutcome) : List Log.Record :=
  let result : PassResult := ⟨outcomes⟩
  if result.success then []
  else
    [Log.warning ("Reconciliation incomplete, failed kinds: " ++
      Text.join ", " (result.failedKinds.map Kind.name))]

def Stretch.after (s : Stretch) (changes : List Audit.Change) (log : List Log.Record) : Stretch :=
  { s with changes := changes ++ s.changes, log := log ++ s.log }

def advance (table : LeaseTable) (origins : List (Int × Scalar)) :
    List Kind → Registry → List KindOutcome → Stretch
  | [], registry, outcomes => ⟨registry, ⟨origins, outcomes, none⟩, [], summary outcomes⟩
  | kind :: rest, registry, outcomes =>
    let u := (registry.updater kind).pruneSources
    if u.enabled then
      let (next, u, log) := plan registry.builders table u
      let registry := registry.modify kind fun _ => u
      match next with
      | .done outcome =>
        Stretch.after (advance table origins rest registry (outcomes ++ [outcome])) [] log
      | .run running => ⟨registry, ⟨origins, outcomes, some (running, rest)⟩, [], log⟩
    else advance table origins rest (registry.modify kind fun _ => u) outcomes

/-- The device on which each lease is held, by sequence number; the latest wins. -/
def originsOf (store : Store) : List (Int × Scalar) :=
  (store.held.map fun (device, id) => ((store.lease id).seqno, device)).reverse

/-- Begins a pass: takes stock of the leases, and goes on to the first script run. -/
def start (store : Store) (registry : Registry) : Stretch :=
  let (registry, log) := registry.configure
  let registry := registry.modifyAll fun u => u.collect store
  Stretch.after (advance store.table (originsOf store) Kind.all registry []) [] log

/-- Goes on after a script run. A pass that waits for none stays as it is. -/
def resume (p : Pass) (table : LeaseTable) (registry : Registry) (result : RunResult) : Stretch :=
  match p.waiting with
  | none => ⟨registry, p, [], []⟩
  | some (running, rest) =>
    let kind := running.call.kind
    let (next, u, changes, log) :=
      conclude table p.origins (registry.updater kind) running result
    let registry := registry.modify kind fun _ => u
    match next with
    | .done outcome =>
      Stretch.after (advance table p.origins rest registry (p.outcomes ++ [outcome])) changes log
    | .run running => ⟨registry, { p with waiting := some (running, rest) }, changes, log⟩

def call? (p : Pass) : Option Call :=
  p.waiting.map fun w => w.1.call

def result? (p : Pass) : Option PassResult :=
  match p.waiting with
  | some _ => none
  | none => some ⟨p.outcomes⟩

end Pass

end Leasehold
