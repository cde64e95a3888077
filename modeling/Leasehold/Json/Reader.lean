import Leasehold.Number.Whole
import Leasehold.Value

/-! Values read from JSON text. Beyond JSON proper the names of the infinities and of NaN are read as
numbers, and of two entries with one key the later gives the value. -/

namespace Leasehold.Json

/-- Why a text is no JSON value. The last two are beyond the limits of the reader. -/
inductive ReadFault
  | malformed
  | digits (count : Nat)
  | depth
deriving DecidableEq, Repr

def ReadFault.message : ReadFault → String
  | .malformed => "no JSON value"
  | .digits count => Whole.Fault.message "" (.tooLong count)
  | .depth => "maximum recursion depth exceeded"

/-- How many digits a whole number may have, and how deep lists and maps may be nested. -/
structure Limits where
  digits : Nat
  depth : Nat
deriving DecidableEq, Repr

/-- The limits for what others have written. How deep it may be nested is for the reader's surroundings to say. -/
def Limits.standard (depth : Nat) : Limits := ⟨Whole.digitLimit, depth⟩

def isBlank (c : Char) : Bool :=
  c == ' ' || c == '\t' || c == '\n' || c == '\r'

def skipBlanks (cs : List Char) : List Char :=
  cs.dropWhile isBlank

def unit? (a b c d : Char) : Option Nat := do
  let a ← Hex.value? a
  let b ← Hex.value? b
  let c ← Hex.value? c
  let d ← Hex.value? d
  return ((a * 16 + b) * 16 + c) * 16 + d

def shortEscape? (c : Char) : Option Char :=
  if c == '"' || c == '\\' || c == '/' then some c
  else if c == 'b' then some '\x08'
  else if c == 'f' then some '\x0c'
  else if c == 'n' then some '\n'
  else if c == 'r' then some '\r'
  else if c == 't' then some '\t'
  else none

/-- Reads the rest of a text up to its quote, its codes so far being given last first. -/
def readText (done : List Text.Code) : List Char → Option (Text.Spelled × List Char)
  | [] => none
  | '\\' :: 'u' :: a :: b :: c :: d :: rest =>
    match unit? a b c d with
    | none => none
    | some n => readText (.ofNat n :: done) rest
  | c :: rest =>
    if c == '"' then some (.ofCodes (Text.Code.joined done.reverse), rest)
    else if c.toNat < 0x20 then none
    else if c == '\\' then
      match rest with
      | [] => none
      | e :: rest =>
        match shortEscape? e with
        | some plain => readText (.char plain :: done) rest
        | none => none
    else readText (.char c :: done) rest

/-- The digits after a point or an exponent's mark, if there are any. -/
def fractionOf (cs : List Char) : List Char × List Char :=
  match cs with
  | '.' :: rest =>
    let digits := rest.takeWhile Text.isAsciiDigit
    if digits.isEmpty then ([], cs) else ('.' :: digits, rest.dropWhile Text.isAsciiDigit)
  | _ => ([], cs)

def exponentOf (cs : List Char) : List Char × List Char :=
  match cs with
  | e :: rest =>
    if e == 'e' || e == 'E' then
      let (sign, rest) := match rest with
        | '-' :: rest => (['-'], rest)
        | '+' :: rest => (['+'], rest)
        | rest => ([], rest)
      let digits := rest.takeWhile Text.isAsciiDigit
      if digits.isEmpty then ([], cs)
      else (e :: sign ++ digits, rest.dropWhile Text.isAsciiDigit)
    else ([], cs)
  | [] => ([], cs)

/-- Reads a number after its sign: no zero leads but a single one. -/
def readNumber (limits : Limits) (negative : Bool) (cs : List Char) : Except ReadFault (Scalar × List Char) :=
  let digits := match cs with
    | '0' :: _ => ['0']
    | cs => cs.takeWhile Text.isAsciiDigit
  if digits.isEmpty then .error .malformed
  else
    let (fraction, rest) := fractionOf (cs.drop digits.length)
    let (exponent, rest) := exponentOf rest
    if fraction.isEmpty && exponent.isEmpty then
      if limits.digits < digits.length then .error (.digits digits.length)
      else
        let n : Int := (Binary64.digitsValue digits : Nat)
        .ok (.int (if negative then -n else n), rest)
    else
      match Binary64.ofUnsigned? negative (digits ++ fraction ++ exponent) with
      | some x => .ok (.float x, rest)
      | none => .error .malformed

def words : List (String × Scalar) :=
  [("null", .null), ("true", .bool true), ("false", .bool false), ("NaN", .float .nan),
    ("Infinity", .float (.infinite false)), ("-Infinity", .float (.infinite true))]

def readPlain (limits : Limits) (cs : List Char) : Except ReadFault (Scalar × List Char) :=
  match words.find? fun w => w.1.toList.isPrefixOf cs with
  | some (word, s) => .ok (s, cs.drop word.length)
  | none =>
    match cs with
    | '-' :: rest => readNumber limits true rest
    | rest => readNumber limits false rest

mutual
/-- Reads one value. `fuel` bounds the steps, `depth` counts the open lists and maps. -/
def readValue (limits : Limits) : Nat → Nat → List Char → Except ReadFault (Value × List Char)
  | 0, _, _ => .error .malformed
  | fuel + 1, depth, cs =>
    match cs with
    | '"' :: rest =>
      match readText [] rest with
      | some (s, rest) => .ok (.scalar (.ofSpelled s), rest)
      | none => .error .malformed
    | '[' :: rest =>
      if limits.depth ≤ depth then .error .depth
      else
        match skipBlanks rest with
        | ']' :: rest => .ok (.list [], rest)
        | rest => do
          let (items, rest) ← readItems limits fuel (depth + 1) rest
          return (.list items, rest)
    | '\x7b' :: rest =>
      if limits.depth ≤ depth then .error .depth
      else
        match skipBlanks rest with
        | '\x7d' :: rest => .ok (.map [], rest)
        | rest => do
          let (entries, rest) ← readEntries limits fuel (depth + 1) rest
          return (.map (Entries.ofList entries), rest)
    | cs => do
      let (s, rest) ← readPlain limits cs
      return (.scalar s, rest)

def readItems (limits : Limits) : Nat → Nat → List Char → Except ReadFault (List Value × List Char)
  | 0, _, _ => .error .malformed
  | fuel + 1, depth, cs => do
    let (item, rest) ← readValue limits fuel depth cs
    match skipBlanks rest with
    | ']' :: rest => return ([item], rest)
    | ',' :: rest => do
      let (items, rest) ← readItems limits fuel depth (skipBlanks rest)
      return (item :: items, rest)
    | _ => .error .malformed

def readEntries (limits : Limits) : Nat → Nat → List Char → Except ReadFault (List (Scalar × Value) × List Char)
  | 0, _, _ => .error .malformed
  | fuel + 1, depth, cs =>
    match cs with
    | '"' :: rest =>
      match readText [] rest with
      | none => .error .malformed
      | some (key, rest) =>
        match skipBlanks rest with
        | ':' :: rest => do
          let (value, rest) ← readValue limits fuel depth (skipBlanks rest)
          match skipBlanks rest with
          | '\x7d' :: rest => return ([(.ofSpelled key, value)], rest)
          | ',' :: rest => do
            let (entries, rest) ← readEntries limits fuel depth (skipBlanks rest)
            return ((.ofSpelled key, value) :: entries, rest)
          | _ => .error .malformed
        | _ => .error .malformed
    | _ => .error .malformed
end

/-- Reads a text that holds one value and nothing else but blanks, within limits. -/
def readWithin (limits : Limits) (s : String) : Except ReadFault Value := do
  let cs := s.toList
  let (value, rest) ← readValue limits (2 * cs.length + 2) 0 (skipBlanks cs)
  if (skipBlanks rest).isEmpty then return value else throw .malformed

def read (depth : Nat) (s : String) : Except ReadFault Value :=
  readWithin (.standard depth) s

end Leasehold.Json
