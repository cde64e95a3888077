import Leasehold.Json.Printer
import Leasehold.Json.Reader
import Leasehold.Lease
import Leasehold.Text.Lines

/-! The audit trail: one JSON line for each script run against a host setting, and the reading of the
newest ones. -/

namespace Leasehold.Audit

/-- One line of the trail. What a reader finds there need not have been written here, so the fields
hold any value. -/
structure Record where
  timestamp : Value
  kind : Value
  operation : Value
  success : Value
  seqno : Value
  device : Value
  source : Value
  output : Value
  error : Value
deriving Inhabited

/-- One script run: the setting, the script's role, how it ended, and the lease that it came from. -/
structure Change where
  kind : String
  operation : String
  success : Bool
  seqno : Int
  device : Option Scalar
  source : Option String
  output : String
  error : Option String
deriving DecidableEq, Repr

/-- Output beyond this many characters is cut off. -/
def outputLimit : Nat := 1000

def Change.record (timestamp : String) (c : Change) : Record where
  timestamp := .str timestamp
  kind := .str c.kind
  operation := .str c.operation
  success := .bool c.success
  seqno := .int c.seqno
  device := (c.device.map Value.scalar).getD .null
  source := .optStr c.source
  output := .str (String.ofList (c.output.toList.take outputLimit))
  error := .optStr c.error

namespace Record

/-- The record as a map, in the order in which it is written. -/
def view (r : Record) : Value :=
  .object [("timestamp", r.timestamp), ("kind", r.kind), ("operation", r.operation),
    ("success", r.success), ("seqno", r.seqno), ("device", r.device), ("source", r.source),
    ("output", r.output), ("error", r.error)]

def nesting (r : Record) : Nat :=
  r.view.depth - 2

/-- The record as readers get it. What is nested deeper than they can go cannot be shown. -/
def shown (depth : Nat) (r : Record) : Except Json.PrintFault Value :=
  if depth < r.nesting then .error .depth else .ok r.view

def line (depth : Nat) (r : Record) : Except Json.PrintFault String :=
  r.shown depth >>= Json.print

def fieldNames : List String :=
  ["timestamp", "kind", "operation", "success", "seqno", "device", "source", "output", "error"]

/-- Reads a record from a map. Time, kind, operation and success must be there, and nothing that is no
field. -/
def ofValue? : Value → Option Record
  | .map entries =>
    if entries.all fun entry => fieldNames.any fun name => entry.1 == .str name then do
      let field (name : String) (standing : Value) : Value :=
        (Entries.field? entries name).getD standing
      return {
        timestamp := ← Entries.field? entries "timestamp"
        kind := ← Entries.field? entries "kind"
        operation := ← Entries.field? entries "operation"
        success := ← Entries.field? entries "success"
        seqno := field "seqno" (.int 0)
        device := field "device" .null
        source := field "source" .null
        output := field "output" (.str "")
        error := field "error" .null }
    else none
  | _ => none

inductive Fault
  | json (fault : Json.ReadFault)
  | shape
deriving DecidableEq, Repr

def ofLine (depth : Nat) (line : String) : Except Fault Record :=
  match Json.read depth line with
  | .error fault => .error (.json fault)
  | .ok v =>
    match ofValue? v with
    | some r => .ok r
    | none => .error .shape

end Record

/-- Why a change cannot be written, if it cannot. Nothing is nested in its record. -/
def Change.unwritable? (c : Change) : Option String :=
  match (c.record "").line 0 with
  | .ok _ => none
  | .error fault => some fault.message

def append (trail : String) (line : String) : String :=
  trail ++ line ++ "\n"

/-- The trail of some records. What cannot be written is left out. -/
def text (depth : Nat) (records : List Record) : String :=
  records.foldl (fun trail r =>
    match r.line depth with
    | .ok line => append trail line
    | .error _ => trail) ""

/-- Which records are wanted: those of a kind and an operation, where these are given, and how many. The
limit need not be a number. -/
structure Query where
  kind : Value
  operation : Value
  limit : Value

inductive QueryFault
  | notNumber (typeName : String)
  | notWhole
  | tooLarge
  | line (fault : Json.ReadFault)
deriving DecidableEq, Repr

def QueryFault.message : QueryFault → String
  | .notNumber typeName => "'>' not supported between instances of 'int' and '" ++ typeName ++ "'"
  | .notWhole => "an integer is required"
  | .tooLarge => "Python int too large to convert to C ssize_t"
  | .line fault => fault.message

/-- How many records a limit lets through. A negative number lets none through; any other number must
be whole and below 2^63. -/
def count : Value → Except QueryFault Nat
  | .scalar s =>
    match s.number? with
    | some (.int i) => if i < 9223372036854775808 then .ok i.toNat else .error .tooLarge
    | some (.float x) => if x.isNegative then .ok 0 else .error .notWhole
    | none => .error (.notNumber (Value.scalar s).typeName)
  | v => .error (.notNumber v.typeName)

/-- A filter that is nothing matches everything. -/
def matchesFilter (filter field : Value) : Bool :=
  !filter.isTruthy || field.same filter

def Query.wants (q : Query) (r : Record) : Bool :=
  matchesFilter q.kind r.kind && matchesFilter q.operation r.operation

/-- The record of a line; blank and malformed lines have none. Beyond the reader's limits a line is an
error. -/
def lineRecord? (depth : Nat) (line : String) : Except Json.ReadFault (Option Record) :=
  if line.toList.all Text.isBlank then .ok none
  else
    match Record.ofLine depth line with
    | .ok r => .ok (some r)
    | .error (.json .malformed) => .ok none
    | .error .shape => .ok none
    | .error (.json fault) => .error fault

/-- The newest of the records found so far, oldest first, and never more of them than the limit lets through. -/
structure Newest (limit : Nat) where
  records : List Record
  bounded : records.length ≤ limit

namespace Newest

def empty (limit : Nat) : Newest limit := ⟨[], Nat.zero_le limit⟩

/-- Adds a record. When there is no room for it the oldest one goes, and the new one itself where nothing is let
through. -/
def push {limit : Nat} (newest : Newest limit) (r : Record) : Newest limit where
  records := (newest.records ++ [r]).drop (newest.records.length + 1 - limit)
  bounded := by
    rw [List.length_drop, List.length_append, List.length_singleton]
    omega

end Newest

/-- Keeps the record of a line, if it has one and it is wanted. -/
def Query.keep {limit : Nat} (q : Query) (newest : Newest limit) : Option Record → Newest limit
  | some r => if q.wants r then newest.push r else newest
  | none => newest

def Query.read {limit : Nat} (depth : Nat) (q : Query) (newest : Newest limit) (line : String) :
    Except Json.ReadFault (Newest limit) :=
  (lineRecord? depth line).map (q.keep newest)

/-- The newest records that a query wants, newest first: the trail is read once, line by line. Without a trail there
are none. -/
def recent (depth : Nat) (trail : Option String) (q : Query) : Except QueryFault (List Record) :=
  match trail with
  | none => .ok []
  | some trail => do
    let limit ← count q.limit
    let newest ← ((Text.fileLines trail).foldlM (q.read depth) (Newest.empty limit)).mapError .line
    return newest.records.reverse

end Leasehold.Audit
