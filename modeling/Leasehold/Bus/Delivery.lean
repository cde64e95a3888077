import Leasehold.Bus

/-! Delivery of an event to observers that may act on the bus themselves. An event goes to those who
were subscribed when it was published; what an observer publishes is delivered at once, before the
next observer is called. An observer that fails is logged and disturbs no other. -/

namespace Leasehold

inductive Action
  | subscribe (name : String) (observer : Nat) (device : Option Scalar)
  | cancel (name : String)
  | publish (e : Event)
  | fail
deriving DecidableEq, Repr

/-- What the observer of each subscription does with an event. -/
abbrev Reaction := Subscription → Event → List Action

/-- An event on its way: who has not been called yet, and what the called observer has not done yet. -/
structure Frame where
  event : Event
  pending : List Subscription
  acting : List Action
deriving Repr

/-- The bus during a delivery: the events on their way, the innermost first, and what has happened. -/
structure Delivery where
  bus : Bus
  stack : List Frame
  delivered : List (Subscription × Event)
  resolved : List (Waiter × Event)
  log : List Log.Record
deriving Repr

namespace Delivery

def ofBus (bus : Bus) : Delivery := ⟨bus, [], [], [], []⟩

def send (d : Delivery) (e : Event) : Delivery :=
  { d with stack := ⟨e, d.bus.subscriptions, []⟩ :: d.stack }

def failure (e : Event) : Log.Record :=
  Log.error ("Lease observer failed on " ++ e.kind.name ++ " for " ++ e.device.display)

/-- The observer that was called last fails, and does nothing more. -/
def fail (d : Delivery) (frame : Frame) (outer : List Frame) : Delivery :=
  { d with
    stack := { frame with acting := [] } :: outer
    log := d.log ++ [failure frame.event] }

/-- One action of the observer that was called last; `frame` is what remains after it. To cancel what
was never subscribed is a failure. -/
def act (d : Delivery) (frame : Frame) (outer : List Frame) : Action → Delivery
  | .subscribe name observer device =>
    { d with bus := d.bus.subscribe name observer device, stack := frame :: outer }
  | .cancel name =>
    match d.bus.idOf? name with
    | some id => { d with bus := d.bus.unsubscribe id, stack := frame :: outer }
    | none => d.fail frame outer
  | .publish e => { d with stack := frame :: outer }.send e
  | .fail => d.fail frame outer

/-- One step: an action of the called observer, else the next call, else the waiters. Nothing happens
when no event is on its way. -/
def step (react : Reaction) (d : Delivery) : Delivery :=
  match d.stack with
  | [] => d
  | frame :: outer =>
    match frame.acting, frame.pending with
    | action :: rest, _ => d.act { frame with acting := rest } outer action
    | [], s :: rest =>
      if s.matches frame.event then
        { d with
          stack := ⟨frame.event, rest, react s frame.event⟩ :: outer
          delivered := d.delivered ++ [(s, frame.event)] }
      else { d with stack := ⟨frame.event, rest, []⟩ :: outer }
    | [], [] =>
      { d with
        bus := d.bus.resolve frame.event
        stack := outer
        resolved := d.resolved ++ (d.bus.waitersFor frame.event).map (·, frame.event) }

/-- Steps until nothing is on its way, or `fuel` of them are done. -/
def run (react : Reaction) : Nat → Delivery → Delivery
  | 0, d => d
  | fuel + 1, d => if d.stack.isEmpty then d else run react fuel (d.step react)

end Delivery

end Leasehold
