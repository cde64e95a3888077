import Leasehold.Text.DecimalDigit
import Leasehold.Text.Quoted

/-! Whole numbers as text: blanks around, a sign, digits of any script with single underscores between
them. Digits of the bases two, eight and sixteen may stand after a mark of their base. -/

namespace Leasehold.Whole

/-- Decimal text longer than this is refused. -/
def digitLimit : Nat := 4300

/-- The value of digits in a base, single underscores standing between digits only.
`afterDigit` tells whether one came right before. -/
def digits? (digit : Char → Option Nat) (base : Nat) : Bool → Nat → List Char → Option Nat
  | afterDigit, value, [] => if afterDigit then some value else none
  | afterDigit, value, c :: rest =>
    if c == '_' then if afterDigit then digits? digit base false value rest else none
    else
      match digit c with
      | some d => digits? digit base true (base * value + d) rest
      | none => none

/-- The characters that blanks and other scripts' digits stand for. -/
def plain (s : String) : List Char :=
  (Text.trimChars Text.isWhiteSpace s.toList).map Text.asciiDigit

def sign : List Char → Int × List Char
  | '-' :: rest => (-1, rest)
  | '+' :: rest => (1, rest)
  | rest => (1, rest)

inductive Fault
  | malformed (base : Nat)
  /-- More digits than the limit. -/
  | tooLong (digits : Nat)
deriving DecidableEq, Repr

/-- Messages show this much of a literal. -/
def shownLimit : Nat := 200

def limitText : String :=
  "Exceeds the limit (" ++ toString digitLimit ++ " digits) for integer string conversion"

def limitAdvice : String :=
  "; use sys.set_int_max_str_digits() to increase the limit"

/-- The message for something that is no whole number, which is shown by its literal. -/
def Fault.message (literal : String) : Fault → String
  | .malformed base =>
    "invalid literal for int() with base " ++ toString base ++ ": " ++
      String.ofList (literal.toList.take shownLimit)
  | .tooLong digits => limitText ++ ": value has " ++ toString digits ++ " digits" ++ limitAdvice

/-- What is said of a whole number that has more digits than may be written. -/
def unwritable : String := limitText ++ limitAdvice

/-- A number with more decimal digits than may be written. -/
def isUnwritable (i : Int) : Bool :=
  Nat.pow 10 digitLimit ≤ i.natAbs

/-- Reads decimal text. The limit is checked before anything that follows the digits. -/
def parse (s : String) : Except Fault Int :=
  let (factor, rest) := sign (plain s)
  let inNumber (c : Char) : Bool := Text.isAsciiDigit c || c == '_'
  let body := rest.takeWhile inNumber
  match digits? Text.decimalDigit? 10 false 0 body with
  | none => .error (.malformed 10)
  | some n =>
    let count := (body.filter (· != '_')).length
    if digitLimit < count then .error (.tooLong count)
    else if (rest.dropWhile inNumber).isEmpty then .ok (factor * n)
    else .error (.malformed 10)

def mark? : Nat → Option Char
  | 2 => some 'b'
  | 8 => some 'o'
  | 16 => some 'x'
  | _ => none

def digitIn? (base : Nat) (c : Char) : Option Nat :=
  (Hex.value? c).filter (· < base)

/-- Digits of a base, with or without its mark. An underscore may follow the mark. -/
def markedDigits? (base : Nat) : List Char → Option Nat
  | '0' :: c :: rest =>
    if mark? base == some c.toLower then
      digits? (digitIn? base) base (rest.head? == some '_') 0 rest
    else digits? (digitIn? base) base false 0 ('0' :: c :: rest)
  | rest => digits? (digitIn? base) base false 0 rest

/-- Reads text of the base two, eight or sixteen, of any length. -/
def parseIn (base : Nat) (s : String) : Except Fault Int :=
  let (factor, rest) := sign (plain s)
  match markedDigits? base rest with
  | some n => .ok (factor * (n : Int))
  | none => .error (.malformed base)

end Leasehold.Whole
