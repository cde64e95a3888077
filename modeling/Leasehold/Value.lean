import Leasehold.Moment
import Leasehold.Number.Decimal
import Leasehold.Text.Blank
import Leasehold.Text.Quoted

/-! Loosely typed data, as callers and configuration documents hand it in: scalars, lists, tuples, sets,
and maps that keep the order of their keys. Keys are scalars, and numbers of one value are one key. A
value may hold itself. -/

namespace Leasehold

inductive Number
  | int (i : Int)
  | float (x : Binary64)
deriving DecidableEq, Repr, Inhabited

inductive Scalar
  | null
  | bool (b : Bool)
  | int (i : Int)
  | float (x : Binary64)
  | str (s : String)
  | torn (t : Text.Torn)
  | bytes (bs : Bytes)
  | day (d : Day)
  | moment (m : Moment)
deriving DecidableEq, Repr, Inhabited

/-- What makes a datum a key. Truth values and numbers of one value are one key, and so are moments of
one instant; everything else is a key by itself, NaN included. -/
inductive Key
  | datum (s : Scalar)
  | whole (i : Int)
  | real (x : Binary64)
  | instant (microseconds : Int)
deriving DecidableEq, Repr, Inhabited

inductive Shape
  | list
  | tuple
  | map
deriving DecidableEq, Repr, Inhabited

/-- A datum, a list, a tuple, a set or a map in the order of its keys. A value that holds itself has a
name there: `loop` gives the name to a list, tuple or map, and `again` inside stands for it. -/
inductive Value
  | scalar (s : Scalar)
  | list (items : List Value)
  | tuple (items : List Value)
  | set (items : List Scalar)
  | map (entries : List (Scalar × Value))
  | loop (name : Nat) (body : Value)
  | again (name : Nat) (shape : Shape)

abbrev Entries := List (Scalar × Value)

instance : Inhabited Value := ⟨.scalar .null⟩

namespace Number

def toScalar : Number → Scalar
  | .int i => .int i
  | .float x => .float x

def isPositive : Number → Bool
  | .int i => 0 < i
  | .float x => x.isPositive

def toBinary64 : Number → Binary64
  | .int i => .ofInt i
  | .float x => x

/-- A time limit leaves no time unless it is positive. One that is no number is over at once. -/
def isOver (n : Number) : Bool := !n.isPositive

/-- A clock cannot tell when a whole number beyond the binary ones is over. -/
def isMeasurable : Number → Bool
  | .int i => (Binary64.ofInt i).isFinite
  | .float _ => true

/-- The binary number nearest to the quotient by a positive whole number. -/
def quotient (n : Number) (divisor : Nat) : Binary64 :=
  match n with
  | .int i => .ofSignedRatio i divisor
  | .float x => x.divNat divisor

end Number

namespace Scalar

def ofSpelled : Text.Spelled → Scalar
  | .whole s => .str s
  | .torn t => .torn t

/-- The number that a datum counts as; the truth values count as zero and one. -/
def number? : Scalar → Option Number
  | .bool b => some (.int (if b then 1 else 0))
  | .int i => some (.int i)
  | .float x => some (.float x)
  | _ => none

def key (s : Scalar) : Key :=
  match s with
  | .bool b => .whole (if b then 1 else 0)
  | .int i => .whole i
  | .float x =>
    match x.toInt? with
    | some i => .whole i
    | none => .real x
  | .moment m =>
    match m.instant? with
    | some microseconds => .instant microseconds
    | none => .datum s
  | s => .datum s

def isKey (a b : Scalar) : Bool :=
  a.key = b.key

def isNaN : Scalar → Bool
  | .float .nan => true
  | _ => false

/-- Data are equal if they are one key, but for NaN, which equals nothing. -/
def same (a b : Scalar) : Bool :=
  a.isKey b && !a.isNaN

/-- A datum that is not null, false, zero or empty. -/
def isTruthy : Scalar → Bool
  | .null => false
  | .bool b => b
  | .int i => i != 0
  | .float x => !x.isZero
  | .str s => s != ""
  | .torn _ => true
  | .bytes bs => !bs.isEmpty
  | .day _ => true
  | .moment _ => true

end Scalar

namespace Entries

def get? (entries : Entries) (key : Scalar) : Option Value :=
  (entries.find? fun entry => entry.1.isKey key).map (·.2)

/-- Sets a key's value. A known key keeps its place; a NaN is always a new one. -/
def insert (entries : Entries) (key : Scalar) (value : Value) : Entries :=
  if entries.any fun entry => entry.1.same key then
    entries.map fun entry => if entry.1.same key then (entry.1, value) else entry
  else entries ++ [(key, value)]

/-- The map of a list of pairs, the last pair of a key giving its value. -/
def ofList (pairs : List (Scalar × Value)) : Entries :=
  pairs.foldl (fun entries pair => entries.insert pair.1 pair.2) []

def field? (entries : Entries) (name : String) : Option Value :=
  get? entries (.str name)

end Entries

def Shape.typeName : Shape → String
  | .list => "list"
  | .tuple => "tuple"
  | .map => "dict"

namespace Value

def null : Value := .scalar .null
def str (s : String) : Value := .scalar (.str s)
def int (i : Int) : Value := .scalar (.int i)
def bool (b : Bool) : Value := .scalar (.bool b)

def optStr : Option String → Value
  | some s => .str s
  | none => .null

def strs (texts : List String) : Value :=
  .list (texts.map .str)

def optStrs : Option (List String) → Value
  | some texts => .strs texts
  | none => .null

def optInt : Option Int → Value
  | some i => .int i
  | none => .null

def object (fields : List (String × Value)) : Value :=
  .map (fields.map fun (name, value) => (.str name, value))

def isTruthy : Value → Bool
  | .scalar s => s.isTruthy
  | .list items => !items.isEmpty
  | .tuple items => !items.isEmpty
  | .set items => !items.isEmpty
  | .map entries => !entries.isEmpty
  | .loop _ body => isTruthy body
  | .again _ _ => true

def typeName : Value → String
  | .scalar .null => "NoneType"
  | .scalar (.bool _) => "bool"
  | .scalar (.int _) => "int"
  | .scalar (.float _) => "float"
  | .scalar (.str _) | .scalar (.torn _) => "str"
  | .scalar (.bytes _) => "bytes"
  | .scalar (.day _) => "date"
  | .scalar (.moment _) => "datetime"
  | .list _ => "list"
  | .tuple _ => "tuple"
  | .set _ => "set"
  | .map _ => "dict"
  | .loop _ body => typeName body
  | .again _ shape => shape.typeName

/-- The name of the kind of value with its family, as messages about a wrong use give it. -/
def fullTypeName : Value → String
  | .scalar (.day d) => "datetime." ++ typeName (.scalar (.day d))
  | .scalar (.moment m) => "datetime." ++ typeName (.scalar (.moment m))
  | v => v.typeName

mutual
/-- Maps and sets are compared without regard to order. -/
def same : Value → Value → Bool
  | .scalar a, .scalar b => a.same b
  | .list xs, .list ys => sameItems xs ys
  | .tuple xs, .tuple ys => sameItems xs ys
  | .set xs, .set ys => xs.length == ys.length && xs.all fun x => ys.any x.same
  | .map xs, .map ys => xs.length == ys.length && sameEntries xs ys
  | .loop a x, .loop b y => a == b && same x y
  | .again a _, .again b _ => a == b
  | _, _ => false

def sameItems : List Value → List Value → Bool
  | [], [] => true
  | x :: xs, y :: ys => same x y && sameItems xs ys
  | _, _ => false

def sameEntries : List (Scalar × Value) → Entries → Bool
  | [], _ => true
  | (key, x) :: rest, ys =>
    match Entries.get? ys key with
    | some y => same x y && sameEntries rest ys
    | none => false
end

mutual
/-- Puts a value in every place where a name stands for it. -/
def fill (name : Nat) (v : Value) : Value → Value
  | .list items => .list (fillItems name v items)
  | .tuple items => .tuple (fillItems name v items)
  | .map entries => .map (fillEntries name v entries)
  | .loop other body => .loop other (fill name v body)
  | .again other shape => if other == name then v else .again other shape
  | .scalar s => .scalar s
  | .set items => .set items

def fillItems (name : Nat) (v : Value) : List Value → List Value
  | [] => []
  | item :: rest => fill name v item :: fillItems name v rest

def fillEntries (name : Nat) (v : Value) : List (Scalar × Value) → List (Scalar × Value)
  | [] => []
  | (key, value) :: rest => (key, fill name v value) :: fillEntries name v rest
end

mutual
/-- How deep a value is nested: a datum is one deep. -/
def depth : Value → Nat
  | .list items => itemsDepth items + 1
  | .tuple items => itemsDepth items + 1
  | .map entries => entriesDepth entries + 1
  | .loop _ body => depth body
  | _ => 1

def itemsDepth : List Value → Nat
  | [] => 0
  | item :: rest => max (depth item) (itemsDepth rest)

def entriesDepth : List (Scalar × Value) → Nat
  | [] => 0
  | (_, value) :: rest => max (depth value) (entriesDepth rest)
end

/-- The value with its outermost layer open: a list, tuple or map that has a name, with itself in the places
where the name stands for it. -/
def unfold : Value → Value
  | .loop name body => fill name (.loop name body) body
  | v => v

end Value

end Leasehold
