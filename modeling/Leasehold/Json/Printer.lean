import Leasehold.Literal

/-! Values as JSON text on one line, in ASCII. A tuple is written as a list. Text keys stand as they are,
the other scalars that JSON knows as keys by their spelling. Bytes, dates and sets have no JSON form, nor
have whole numbers beyond the limit of digits, values that hold themselves and what is nested too deep. -/

namespace Leasehold.Json

inductive PrintFault
  | value (typeName : String)
  | key (typeName : String)
  | digits
  | loop
  | depth
deriving DecidableEq, Repr

def PrintFault.message : PrintFault → String
  | .value typeName => "Object of type " ++ typeName ++ " is not JSON serializable"
  | .key typeName => "keys must be str, int, float, bool or None, not " ++ typeName
  | .digits => Whole.unwritable
  | .loop => "Circular reference detected"
  | .depth => "maximum recursion depth exceeded"

/-- A sixteen bit unit by its code. -/
def escapeUnit (n : Nat) : List Char :=
  ['\\', 'u'] ++ (Hex.ofNat 4 n).toList

/-- A character inside quotes. Beyond sixteen bits it takes two units. -/
def escape (c : Char) : List Char :=
  if c == '"' then ['\\', '"']
  else if c == '\\' then ['\\', '\\']
  else if c == '\n' then ['\\', 'n']
  else if c == '\r' then ['\\', 'r']
  else if c == '\t' then ['\\', 't']
  else if c == '\x0c' then ['\\', 'f']
  else if c == '\x08' then ['\\', 'b']
  else
    let n := c.toNat
    if 0x20 ≤ n && n ≤ 0x7E then [c]
    else if n < 0x10000 then escapeUnit n
    else
      let offset := n - 0x10000
      escapeUnit (0xD800 + offset / 0x400) ++ escapeUnit (0xDC00 + offset % 0x400)

/-- Half a pair stands by its own unit. -/
def escapeCode : Text.Code → List Char
  | .char c => escape c
  | .half h => escapeUnit h.unit

def quote : Text.Spelled → String
  | .whole s => String.ofList ('"' :: s.toList.flatMap escape ++ ['"'])
  | .torn t => String.ofList ('"' :: t.codes.flatMap escapeCode ++ ['"'])

/-- A binary number, with names for what JSON proper cannot write. -/
def number (x : Binary64) : String :=
  match x with
  | .nan => "NaN"
  | .infinite negative => if negative then "-Infinity" else "Infinity"
  | x => x.text

def scalar : Scalar → Except PrintFault String
  | .null => .ok "null"
  | .bool b => .ok (if b then "true" else "false")
  | .int i => if Whole.isUnwritable i then .error .digits else .ok (toString i)
  | .float x => .ok (number x)
  | .str s => .ok (quote (.whole s))
  | .torn t => .ok (quote (.torn t))
  | s => .error (.value (Value.scalar s).typeName)

def keyText : Scalar → Except PrintFault Text.Spelled
  | .str s => .ok (.whole s)
  | .torn t => .ok (.torn t)
  | .bytes bs => .error (.key (Value.scalar (.bytes bs)).typeName)
  | .day d => .error (.key (Value.scalar (.day d)).typeName)
  | .moment m => .error (.key (Value.scalar (.moment m)).typeName)
  | s => (scalar s).map .whole

mutual
def print : Value → Except PrintFault String
  | .scalar s => scalar s
  | .list items => do return "[" ++ Text.join ", " (← printItems items) ++ "]"
  | .tuple items => do return "[" ++ Text.join ", " (← printItems items) ++ "]"
  | .set items => .error (.value (Value.set items).typeName)
  | .loop _ _ => .error .loop
  | .again _ _ => .error .loop
  | .map entries => do return "\x7b" ++ Text.join ", " (← printEntries entries) ++ "\x7d"

def printItems : List Value → Except PrintFault (List String)
  | [] => .ok []
  | item :: rest => do
    let first ← print item
    return first :: (← printItems rest)

def printEntries : List (Scalar × Value) → Except PrintFault (List String)
  | [] => .ok []
  | (key, value) :: rest => do
    let name ← keyText key
    let shown ← print value
    return (quote name ++ ": " ++ shown) :: (← printEntries rest)
end

/-- A text as its reader gets it. Halves of a pair that meet are read as its character. -/
def readAgain : Text.Spelled → Text.Spelled
  | .whole s => .whole s
  | .torn t => .ofCodes (Text.Code.joined t.codes)

mutual
/-- The value that a reader of its JSON text gets back: every key is text, and of two keys with one
text the later gives the value. -/
def published : Value → Except PrintFault Value
  | .scalar (.torn t) => .ok (.scalar (.ofSpelled (readAgain (.torn t))))
  | .scalar s => do
    let _ ← scalar s
    return .scalar s
  | .list items => do return .list (← publishedItems items)
  | .tuple items => do return .list (← publishedItems items)
  | .set items => .error (.value (Value.set items).typeName)
  | .loop _ _ => .error .loop
  | .again _ _ => .error .loop
  | .map entries => do return .map (Entries.ofList (← publishedEntries entries))

def publishedItems : List Value → Except PrintFault (List Value)
  | [] => .ok []
  | item :: rest => do
    let first ← published item
    return first :: (← publishedItems rest)

def publishedEntries : List (Scalar × Value) → Except PrintFault (List (Scalar × Value))
  | [] => .ok []
  | (key, value) :: rest => do
    let name ← keyText key
    let first ← published value
    return (.ofSpelled (readAgain name), first) :: (← publishedEntries rest)
end

end Leasehold.Json
