import Leasehold.Tools.Answer
import Leasehold.Tools.Catalogue

/-! Reading the arguments of a tool call. Nobody checks them against the tool's schema, so each one may
be missing or of any kind. -/

namespace Leasehold.Tools

def needed (arguments : Entries) (name : String) : Except Fault Value :=
  match Entries.field? arguments name with
  | some v => .ok v
  | none => .error (.missing name)

def given (arguments : Entries) (name : String) (standing : Value) : Value :=
  (Entries.field? arguments name).getD standing

/-- The name of a known device that a value stands for, as the caller spells it. NaN stands for none. -/
def deviceName (store : Store) : Value → Except Fault Scalar
  | .scalar s =>
    if (store.device? s).isSome && !s.isNaN then .ok s else .error (.unknownDevice ⟨s⟩)
  | v => .error (.unhashable v.typeName)

/-- The device that events are asked for. Null asks for the events of every device. -/
def deviceFilter : Scalar → Option Scalar
  | .null => none
  | s => some s

def eventKind (v : Value) : Except Fault (Option EventKind) :=
  if !v.isTruthy then .ok none
  else
    let kind? := match v with
      | .scalar (.str s) => EventKind.ofName? s
      | _ => none
    match kind? with
    | some kind => .ok (some kind)
    | none => .error (.eventKind v)

/-- A whole number beyond the binary ones. -/
def beyondBinary : Fault := .measure "int too large to convert to float"

inductive Patience
  | none
  | some
deriving DecidableEq, Repr

/-- The patience of a time limit. Null waits as long as it takes. -/
def patience : Value → Except Fault Patience
  | .scalar .null => .ok .some
  | v =>
    let number? := match v with
      | .scalar s => s.number?
      | _ => Option.none
    match number? with
    | Option.none => .error (.order "<=" v.typeName "int")
    | Option.some n =>
      if n.isOver then .ok .none
      else if n.isMeasurable then .ok .some
      else .error beyondBinary

end Leasehold.Tools
