import Leasehold.Event
import Leasehold.Reconciliation.Pass

/-! When passes run. Only one runs at a time, and those who ask for one wait in line. Besides, passes
can be scheduled: a task runs them, and everything that is scheduled before it takes stock again comes
to one pass. A task is over when nothing more is scheduled; the next time a new one is made. -/

namespace Leasehold

inductive Requester
  | runner
  | caller (name : Nat)
deriving DecidableEq, Repr

/-- How far a task is: it has not begun, or it asks for passes. -/
inductive TaskStage
  | created
  | working
deriving DecidableEq, Repr, Inhabited

/-- The registry, whether a pass is wanted that has not taken stock yet, the task if there is one, the
results of the tasks that are over, the line of those who wait for a pass, and the pass under way. -/
structure Engine where
  registry : Registry
  dirty : Bool
  task : Option TaskStage
  finished : List (Option PassResult)
  line : List Requester
  current : Option (Requester × Pass)

structure EngineStep where
  engine : Engine
  changes : List Audit.Change
  log : List Log.Record

namespace Engine

def ofRegistry (registry : Registry) : Engine := ⟨registry, false, none, [], [], none⟩

/-- Asks for a pass by the task, which is made if there is none. -/
def schedule (e : Engine) : Engine :=
  { e with dirty := true, task := some (e.task.getD .created) }

/-- Schedules a pass if an event tells of changed leases. -/
def notice (e : Engine) (event : Event) : Engine :=
  if event.changesLeases then e.schedule else e

/-- The task goes on: it asks for another pass if one is wanted, and is over otherwise. -/
def proceed (e : Engine) (last : Option PassResult) : Engine :=
  if e.dirty then { e with dirty := false, task := some .working, line := e.line ++ [.runner] }
  else { e with task := none, finished := e.finished ++ [last] }

/-- Lets a task begin that has not. -/
def wake (e : Engine) : Engine :=
  match e.task with
  | some .created => e.proceed none
  | _ => e

def request (e : Engine) (name : Nat) : Engine :=
  { e with line := e.line ++ [.caller name] }

/-- The engine after a stretch of the pass of a requester. -/
def goOn (e : Engine) (who : Requester) (s : Stretch) : EngineStep :=
  ⟨{ e with registry := s.registry, current := some (who, s.pass) }, s.changes, s.log⟩

/-- Begins the pass of the first in line, if none is under way. -/
def begin (e : Engine) (store : Store) : EngineStep :=
  match e.current, e.line with
  | none, who :: rest => { e with line := rest }.goOn who (Pass.start store e.registry)
  | _, _ => ⟨e, [], []⟩

def resume (e : Engine) (table : LeaseTable) (result : RunResult) : EngineStep :=
  match e.current with
  | some (who, pass) => e.goOn who (pass.resume table e.registry result)
  | none => ⟨e, [], []⟩

def call? (e : Engine) : Option Call :=
  e.current.bind fun c => c.2.call?

/-- Takes leave of a pass that is over, and tells whose it was and its result. -/
def complete? (e : Engine) : Option (Requester × PassResult × Engine) := do
  let (who, pass) ← e.current
  let result ← pass.result?
  let e := { e with current := none }
  match who with
  | .runner => return (who, result, e.proceed (some result))
  | .caller _ => return (who, result, e)

/-- The number of the newest task, for those who wait for it. -/
def newestTask? (e : Engine) : Option Nat :=
  match e.task with
  | some _ => some e.finished.length
  | none => if e.finished.isEmpty then none else some (e.finished.length - 1)

/-- What a task gives once it is over: the result of its last pass. -/
def taskResult? (e : Engine) (task : Nat) : Option (Option PassResult) :=
  e.finished[task]?

def status (e : Engine) (store : Store) : List (String × Value) :=
  [("devices", .int store.devices.length), ("updaters", e.registry.view store.table)]

end Engine

end Leasehold
