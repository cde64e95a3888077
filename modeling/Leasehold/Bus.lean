import Leasehold.Event
import Leasehold.Log.Record

/-! The event bus: subscriptions, which get every event of their device, and waiters, which get the
first event that passes their filters and are gone then. A subscription is known by the name that
its subscriber gives it; a name that is given again stands for the newer subscription. -/

namespace Leasehold

/-- A registered observer, of one device or of all. -/
structure Subscription where
  id : Nat
  name : String
  observer : Nat
  device : Option Scalar
deriving DecidableEq, Repr, Inhabited

structure Waiter where
  name : String
  device : Option Scalar
  kind : Option EventKind
  uuid : Option Bytes
deriving DecidableEq, Repr, Inhabited

/-- Whoever names no device wants every one. -/
def concerns (wanted : Option Scalar) (e : Event) : Bool :=
  wanted.all fun device => device.isKey e.device

def Subscription.matches (s : Subscription) (e : Event) : Bool :=
  concerns s.device e

def Waiter.matches (w : Waiter) (e : Event) : Bool :=
  concerns w.device e && w.kind.all (fun wanted => decide (wanted = e.kind)) &&
    w.uuid.all fun wanted => decide (some wanted = e.requestUuid)

/-- The subscriptions in the order in which they were made, the waiters likewise, the newest
subscription of each name, and how many there have been. -/
structure Bus where
  subscriptions : List Subscription
  waiters : List Waiter
  newest : List (String × Nat)
  issued : Nat
deriving DecidableEq, Repr, Inhabited

namespace Bus

def empty : Bus := ⟨[], [], [], 0⟩

def subscribe (b : Bus) (name : String) (observer : Nat) (device : Option Scalar) : Bus :=
  { b with
    subscriptions := b.subscriptions ++ [⟨b.issued, name, observer, device⟩]
    newest := (name, b.issued) :: b.newest
    issued := b.issued + 1 }

/-- The newest subscription of a name. -/
def idOf? (b : Bus) (name : String) : Option Nat :=
  b.newest.lookup name

def unsubscribe (b : Bus) (id : Nat) : Bus :=
  { b with subscriptions := b.subscriptions.filter fun s => s.id ≠ id }

def cancel (b : Bus) (name : String) : Bus :=
  match b.idOf? name with
  | some id => b.unsubscribe id
  | none => b

/-- The newest subscription of a name is still registered. -/
def isActive (b : Bus) (name : String) : Bool :=
  match b.idOf? name with
  | some id => b.subscriptions.any fun s => s.id = id
  | none => false

def await (b : Bus) (w : Waiter) : Bus :=
  { b with waiters := b.waiters ++ [w] }

def forget (b : Bus) (name : String) : Bus :=
  { b with waiters := b.waiters.filter fun w => w.name ≠ name }

def waitersFor (b : Bus) (e : Event) : List Waiter :=
  b.waiters.filter fun w => w.matches e

def resolve (b : Bus) (e : Event) : Bus :=
  { b with waiters := b.waiters.filter fun w => !w.matches e }

def observersOf (b : Bus) (e : Event) : List Subscription :=
  b.subscriptions.filter fun s => s.matches e

end Bus

end Leasehold
