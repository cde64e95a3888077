import Leasehold.Text.Quoted
import Leasehold.Value

/-! The host-wide settings that a lease may drive, and the masks that permit them. A mask is a whole
number with one bit per kind of setting. -/

namespace Leasehold

inductive Kind
  | hostname
  | resolver
  | ntp
  | nis
deriving DecidableEq, Repr, Inhabited

namespace Kind

/-- Every kind, in the order in which they are dealt with. -/
def all : List Kind := [hostname, resolver, ntp, nis]

def name : Kind → String
  | hostname => "hostname"
  | resolver => "resolver"
  | ntp => "ntp"
  | nis => "nis"

def ofName? (s : String) : Option Kind :=
  all.find? fun kind => kind.name == s

def bit : Kind → Int
  | hostname => 1
  | resolver => 2
  | ntp => 4
  | nis => 8

theorem mem_all (kind : Kind) : kind ∈ all := by
  cases kind <;> decide

end Kind

structure PerKind (α : Type) where
  hostname : α
  resolver : α
  ntp : α
  nis : α
deriving DecidableEq, Repr, Inhabited

namespace PerKind

variable {α β : Type}

def get (t : PerKind α) : Kind → α
  | .hostname => t.hostname
  | .resolver => t.resolver
  | .ntp => t.ntp
  | .nis => t.nis

def set (t : PerKind α) (kind : Kind) (a : α) : PerKind α :=
  match kind with
  | .hostname => { t with hostname := a }
  | .resolver => { t with resolver := a }
  | .ntp => { t with ntp := a }
  | .nis => { t with nis := a }

def ofFn (f : Kind → α) : PerKind α :=
  ⟨f .hostname, f .resolver, f .ntp, f .nis⟩

def map (f : α → β) (t : PerKind α) : PerKind β :=
  ofFn fun kind => f (t.get kind)

def toList (t : PerKind α) : List α :=
  Kind.all.map t.get

@[simp] theorem get_ofFn (f : Kind → α) (kind : Kind) : (ofFn f).get kind = f kind := by
  cases kind <;> rfl

@[simp] theorem get_map (f : α → β) (t : PerKind α) (kind : Kind) :
    (t.map f).get kind = f (t.get kind) :=
  get_ofFn _ _

@[simp] theorem get_set_self (t : PerKind α) (kind : Kind) (a : α) : (t.set kind a).get kind = a := by
  cases kind <;> rfl

theorem get_set (t : PerKind α) (kind other : Kind) (a : α) :
    (t.set kind a).get other = if other = kind then a else t.get other := by
  cases kind <;> cases other <;> rfl

end PerKind

namespace UpdateMask

def permits (mask : Int) (kind : Kind) : Bool :=
  mask / kind.bit % 2 == 1

def kinds (mask : Int) : List Kind :=
  Kind.all.filter (permits mask)

def ofKinds (kinds : List Kind) : Int :=
  (Kind.all.filter fun kind => kinds.contains kind).foldl (fun mask kind => mask + kind.bit) 0

/-- Leases drive the host name and the resolver unless told otherwise. -/
def standard : Int := ofKinds [.hostname, .resolver]

inductive Fault
  | notIterable
  | unknown (element : Value)

/-- What a value yields one by one: a text its characters, a byte string its bytes, a list or tuple its
items, a set its members, a map its keys. -/
def elements? (v : Value) : Option (List Value) :=
  match v.unfold with
  | .scalar (.str s) => some (s.toList.map fun c => .str (String.ofList [c]))
  | .scalar (.torn t) => some (t.codes.map fun code => .scalar (.ofSpelled (.ofCodes [code])))
  | .scalar (.bytes bs) => some (bs.map fun b => .int b.toNat)
  | .list items => some items
  | .tuple items => some items
  | .set items => some (items.map .scalar)
  | .map entries => some (entries.map fun entry => .scalar entry.1)
  | _ => none

/-- The mask of the kinds that a value's elements name. -/
def ofValue (v : Value) : Except Fault Int := do
  let some items := elements? v | throw .notIterable
  let named ← items.mapM fun item =>
    match item with
    | .scalar (.str s) =>
      match Kind.ofName? s with
      | some kind => pure kind
      | none => throw (.unknown item)
    | _ => throw (.unknown item)
  return ofKinds named

end UpdateMask

end Leasehold
