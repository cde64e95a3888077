import Leasehold.Uuid

/-! What can be wrong with the options of a request, field by field. -/

namespace Leasehold.Request

/-- What is wrong with one value. A value that is no text, number or list has the message of its checker. -/
inductive Cause
  | uuid (fault : Uuid.Fault)
  | family
  | kind
  | value (message : String)
  | hostname
  | address (server : String)
  | negative
  | unknownField
  | keyNotText
deriving DecidableEq, Repr

/-- A cause and the place of the value, a field or an element of one. -/
structure Problem where
  place : String
  cause : Cause
deriving DecidableEq, Repr

inductive Fault
  | missing
  | notAMapping
  | empty
  | invalid (problems : List Problem)
deriving DecidableEq, Repr

def Cause.message : Cause → String
  | .uuid fault => "Value error, " ++ fault.message
  | .family => "Input should be 'ipv4' or 'ipv6'"
  | .kind => "Input should be 'hostname', 'resolver', 'ntp' or 'nis'"
  | .value message => message
  | .hostname => "Value error, hostname must be a non-empty name without whitespace"
  | .address server => "Value error, invalid DNS server address: " ++ server
  | .negative => "Input should be greater than or equal to 0"
  | .unknownField => "Extra inputs are not permitted"
  | .keyNotText => "Keys should be strings"

/-- The message with its place; a place without name is spoken of as the options. -/
def Problem.message (p : Problem) : String :=
  (if p.place == "" then "options" else p.place) ++ ": " ++ p.cause.message

def Fault.message : Fault → String
  | .missing => "Missing arguments: no request options given"
  | .notAMapping => "Request options must be a mapping"
  | .empty => "Missing arguments: empty request options"
  | .invalid problems =>
    "Cannot extract addrconf request from options: " ++
      Text.join "; " (problems.map Problem.message)

end Leasehold.Request
