import Leasehold.Bus.Delivery

/-! Waiting for an event as a task of its own. A task that was started is not on the bus before it gets
its turn. A task that is cancelled ends at its next turn; one with a time limit stays on the bus until
then, and an event that it has got by then is its result after all. So an event that has come prevails
over the timer, also where the timer goes off in the same turn. Timers that end a wait then and there,
whatever has come, are left out. -/

namespace Leasehold

inductive WaitResult
  | event (e : Event)
  | expired
  | cancelled
deriving DecidableEq, Repr

/-- How long a wait lasts: not at all, up to a limit that does not come, or for ever. -/
inductive TimeLimit
  | none
  | distant
  | never
deriving DecidableEq, Repr

/-- The bus, the waits that have not had a turn yet, the names of the waits on the bus that have a
limit, those that are to end at the next turn, the results that will show then, and what was delivered
and logged since the last one. -/
structure WaitTasks where
  bus : Bus
  started : List (Waiter × TimeLimit)
  limited : List String
  ending : List String
  results : List (String × WaitResult)
  delivered : List (Subscription × Event)
  log : List Log.Record
deriving DecidableEq, Repr, Inhabited

namespace WaitTasks

def ofBus (bus : Bus) : WaitTasks := ⟨bus, [], [], [], [], [], []⟩

def fresh (t : WaitTasks) : WaitTasks :=
  { t with results := [], delivered := [], log := [] }

def start (t : WaitTasks) (w : Waiter) (limit : TimeLimit) : WaitTasks :=
  { t with started := t.started ++ [(w, limit)] }

def isPending (t : WaitTasks) (name : String) : Bool :=
  t.started.any (fun s => s.1.name == name) || t.bus.waiters.any (fun w => w.name == name) ||
    t.results.any (fun r => r.1 == name)

def drop (t : WaitTasks) (name : String) (result : WaitResult) : WaitTasks :=
  { t with
    bus := t.bus.forget name
    started := t.started.filter fun s => s.1.name != name
    limited := t.limited.filter (· != name)
    results := t.results.filter (fun r => r.1 != name) ++ [(name, result)] }

def cancel (t : WaitTasks) (name : String) : WaitTasks :=
  if t.limited.contains name then { t with ending := t.ending ++ [name] }
  else if t.isPending name then t.drop name .cancelled
  else t

def publish (t : WaitTasks) (react : Reaction) (fuel : Nat) (e : Event) : WaitTasks :=
  let d := ((Delivery.ofBus t.bus).send e).run react fuel
  { t with
    bus := d.bus
    results := t.results ++ d.resolved.map fun (w, e) => (w.name, .event e)
    delivered := t.delivered ++ d.delivered
    log := t.log ++ d.log }

/-- Gives a task that was started its turn: it goes on the bus, or is over at once if it has no time. -/
def begin (t : WaitTasks) (started : Waiter × TimeLimit) : WaitTasks :=
  let (w, limit) := started
  match limit with
  | .none => { t with results := t.results ++ [(w.name, .expired)] }
  | .distant => { t with bus := t.bus.await w, limited := w.name :: t.limited }
  | .never => { t with bus := t.bus.await w }

/-- Ends a task that was cancelled, unless its event has come. -/
def finish (t : WaitTasks) (name : String) : WaitTasks :=
  if t.results.any fun r => r.1 == name then t else t.drop name .cancelled

/-- Gives every task its turn. Those whose result is there have no limit any more. -/
def turn (t : WaitTasks) : WaitTasks :=
  let t := t.ending.foldl finish { t with ending := [] }
  let t := { t with limited := t.limited.filter fun name => !t.results.any fun r => r.1 == name }
  t.started.foldl begin { t with started := [] }

end WaitTasks

end Leasehold
