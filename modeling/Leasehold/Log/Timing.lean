import Leasehold.Literal
import Leasehold.Log.Record

/-! Lines of the performance log: what was done, to what, how long it took, and how it ended. -/

namespace Leasehold.Log

/-- One timed operation: how many microseconds it took, as a binary number, and the text of its error
if it failed. -/
structure Timing where
  operation : String
  subject : Option String
  microseconds : Binary64
  error : Option String
  extra : Entries

namespace Timing

/-- The subject of an operation: the one it was declared with, else the name of the thing it was done
to, if that has one. -/
def subjectOf (declared : Option String) (name : Option Value) : Option String :=
  match declared with
  | some subject => some subject
  | none => name.map Value.display

/-- The subject as shown; a missing or empty one has a mark of its own. -/
def shownSubject (t : Timing) : String :=
  match t.subject with
  | some subject => if subject == "" then "N/A" else subject
  | none => "N/A"

/-- The time in milliseconds with two places, computed in binary from seconds. -/
def shownTime (t : Timing) : String :=
  ((t.microseconds.divNat 1000000).mul (.ofInt 1000)).fixed 2

def status (t : Timing) : String :=
  match t.error with
  | none => "OK"
  | some message => "FAIL: " ++ message

def line (t : Timing) : String :=
  Text.join " | " <|
    [Text.padRight 20 t.operation, Text.padRight 15 t.shownSubject,
      Text.padLeft 8 t.shownTime ++ "ms", t.status] ++
      t.extra.map fun (key, value) => key.display ++ "=" ++ value.display

def record (t : Timing) : Record :=
  ⟨if t.error.isSome then .warning else .info, t.line⟩

end Timing

end Leasehold.Log
