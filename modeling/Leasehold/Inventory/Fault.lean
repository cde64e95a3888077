import Leasehold.Command
import Leasehold.Kind
import Leasehold.Number.Whole

/-! What can be wrong with a configuration, and the reading of numbers from it. -/

namespace Leasehold.Inventory

inductive Fault
  /-- Something that should be a map is none, and is asked for something that only maps have. -/
  | notAMap (typeName : String) (asked : String)
  /-- A value of a kind that cannot be used in its place. -/
  | unfit (message : String)
  /-- A number's text that cannot be read, or no number at all. -/
  | number (message : String)
  /-- A number out of range. -/
  | range (message : String)
  | unknownDevice (name : Scalar)
  | block (kind : Kind)
  | command (fault : Command.Fault)
  /-- Text that stands for no known mode. -/
  | mode (text : String)
  /-- A known mode that nothing here can negotiate. -/
  | negotiator (modeName : String)

def Fault.message : Fault → String
  | .notAMap typeName asked => "'" ++ typeName ++ "' object has no attribute '" ++ asked ++ "'"
  | .unfit message => message
  | .number message => message
  | .range message => message
  | .unknownDevice name => "Unknown device: " ++ name.display
  | .block kind => "Updater block for " ++ kind.name ++ " must be a mapping"
  | .command fault => fault.message
  | .mode text => "Unknown acquisition mode: " ++ text
  | .negotiator modeName => "No negotiator available for acquisition mode " ++ modeName

def noNumber (expected : String) (v : Value) : Fault :=
  .unfit (expected ++ " or a real number, not '" ++ v.fullTypeName ++ "'")

def noFloat : Value → Fault :=
  noNumber "float() argument must be a string"

def noWhole : Value → Fault :=
  noNumber "int() argument must be a string, a bytes-like object"

/-- Bytes as text for number reading; what is not ASCII belongs to no number. -/
def asciiText (bs : Bytes) : String :=
  String.ofList (bs.map fun b => if b.toNat < 128 then Char.ofNat b.toNat else '\uFFFD')

def readFloatText (text : String) (literal : String) : Except Fault Binary64 :=
  match Binary64.parse? text with
  | some x => .ok x
  | none => .error (.number ("could not convert string to float: " ++ literal))

def readFloat : Value → Except Fault Binary64
  | .scalar s =>
    match s with
    | .bool b => .ok (.ofInt (if b then 1 else 0))
    | .int i =>
      match Binary64.ofInt i with
      | .infinite _ => .error (.range "int too large to convert to float")
      | x => .ok x
    | .float x => .ok x
    | .str text => readFloatText text (Quoted.text text)
    | .torn t => .error (.number ("could not convert string to float: " ++ Quoted.torn t))
    | .bytes bs => readFloatText (asciiText bs) (Quoted.bytes bs)
    | s => .error (noFloat (.scalar s))
  | v => .error (noFloat v)

def readWholeText (text : String) (literal : String) : Except Fault Int :=
  match Whole.parse text with
  | .ok i => .ok i
  | .error fault => .error (.number (fault.message literal))

/-- A whole number from a number, which is cut toward zero, or from text. -/
def readWhole : Value → Except Fault Int
  | .scalar s =>
    match s with
    | .bool b => .ok (if b then 1 else 0)
    | .int i => .ok i
    | .float .nan => .error (.number "cannot convert float NaN to integer")
    | .float x =>
      match x.truncate? with
      | some i => .ok i
      | none => .error (.range "cannot convert float infinity to integer")
    | .str text => readWholeText text (Quoted.text text)
    | .torn t => .error (.number ((Whole.Fault.malformed 10).message (Quoted.torn t)))
    | .bytes bs => readWholeText (asciiText bs) (Quoted.bytes bs)
    | s => .error (noWhole (.scalar s))
  | v => .error (noWhole v)

end Leasehold.Inventory
