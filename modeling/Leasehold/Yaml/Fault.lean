import Leasehold.Text.Quoted

/-! What can be wrong with a document. -/

namespace Leasehold.Yaml

inductive Fault
  /-- A character that no document may hold. -/
  | unprintable
  /-- Characters that make up no token. -/
  | lexical
  /-- Tokens that make up no node. -/
  | grammar
  /-- An alias without anchor, or an anchor twice. -/
  | reference
  /-- A node whose tag or content stands for no value. -/
  | value
  /-- Nodes that are nested too deep. -/
  | depth
  /-- Text that a tag declares to be a number or a date and that is none. -/
  | number (message : String)
  /-- A number that is out of range. -/
  | range (message : String)
  /-- No text where a tag declares a number. -/
  | noNumber
  /-- Text that a tag declares to be a truth value and that is none. -/
  | noTruth (text : String)
  /-- Text that a tag declares to be a date and that has not the form of one. -/
  | noDate
  /-- A map that a tag declares to be a date. -/
  | noDateText
deriving DecidableEq, Repr

def Fault.message : Fault → String
  | .number message => message
  | .range message => message
  | .noNumber => "string index out of range"
  | .noTruth text => Quoted.text text
  | .noDate => "'NoneType' object has no attribute 'groupdict'"
  | .noDateText => "expected string or bytes-like object, got 'list'"
  | .depth => "maximum recursion depth exceeded"
  | _ => "the configuration cannot be read"

end Leasehold.Yaml
