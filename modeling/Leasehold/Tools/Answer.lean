import Leasehold.Acquisition.Remote
import Leasehold.Audit
import Leasehold.Inventory.Fault
import Leasehold.Json.Printer

/-! What a tool answers: a JSON document, or a plain text that tells what went wrong. -/

namespace Leasehold.Tools

inductive Answer
  | document (v : Value)
  | text (s : String)

inductive Fault
  | inventory (message : String)
  | missing (name : String)
  | unhashable (typeName : String)
  | unknownDevice (fault : UnknownDevice)
  | eventKind (v : Value)
  /-- Two values of kinds that cannot be compared. -/
  | order (sign left right : String)
  /-- A time beyond what can be measured. -/
  | measure (message : String)
  | query (fault : Audit.QueryFault)
  | unprintable (fault : Json.PrintFault)
  | method (fault : Remote.MethodFault)
  | crash (message : String)

def Fault.message : Fault → String
  | .inventory message => message
  | .missing name => Quoted.text name
  | .unhashable typeName => "unhashable type: '" ++ typeName ++ "'"
  | .unknownDevice fault => fault.message
  | .eventKind v => v.literal ++ " is not a valid LeaseEventType"
  | .order sign left right =>
    "'" ++ sign ++ "' not supported between instances of '" ++ left ++ "' and '" ++ right ++ "'"
  | .measure message => message
  | .query fault => fault.message
  | .unprintable fault => fault.message
  | .method fault => fault.text
  | .crash message => message

/-- The answer that a fault makes. What a remote method refuses is told as a document. -/
def Fault.answer : Fault → Answer
  | .method fault => .document (.object [("error", fault.view)])
  | fault => .text ("Error: " ++ fault.message)

/-- The answer that tells a value. What readers get back of the value is what its JSON text keeps. -/
def Answer.telling (v : Value) : Answer :=
  match Json.published v with
  | .ok v => .document v
  | .error fault => (Fault.unprintable fault).answer

end Leasehold.Tools
