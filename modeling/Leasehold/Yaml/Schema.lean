import Leasehold.Literal
import Leasehold.Text.Lines
import Leasehold.Text.Lower
import Leasehold.Text.Split
import Leasehold.Yaml.Cursor

/-! Tags: what kind of value a node stands for. A plain scalar without tag gets the one that its text
looks like. -/

namespace Leasehold.Yaml

inductive Tag
  | null
  | bool
  | int
  | float
  | timestamp
  | merge
  | standing
  | str
  | bytes
  | seq
  | map
  | set
  | omap
  | pairs
  | other
deriving DecidableEq, Repr

namespace Tag

def schemaStart : String := "tag:yaml.org,2002:"

def names : List (String × Tag) :=
  [("null", null), ("bool", bool), ("int", int), ("float", float), ("timestamp", timestamp),
    ("merge", merge), ("value", standing), ("str", str), ("binary", bytes), ("seq", seq),
    ("map", map), ("set", set), ("omap", omap), ("pairs", pairs)]

def ofText (s : String) : Tag :=
  ((names.find? fun n => s == schemaStart ++ n.1).map (·.2)).getD other

/-- The texts of the two truth values, each in three cases. -/
def trueTexts : List String :=
  ["yes", "Yes", "YES", "true", "True", "TRUE", "on", "On", "ON"]

def falseTexts : List String :=
  ["no", "No", "NO", "false", "False", "FALSE", "off", "Off", "OFF"]

def nullTexts : List String := ["", "~", "null", "Null", "NULL"]

def dropSign : List Char → List Char
  | '-' :: rest => rest
  | '+' :: rest => rest
  | rest => rest

def isDigitOrUnderscore (c : Char) : Bool := c.isDigit || c == '_'

def isRun (p : Char → Bool) (cs : List Char) : Bool :=
  !cs.isEmpty && cs.all p

/-- A part of a number to the base sixty: one digit, or two of which the first is below six. -/
def isSixtieth : List Char → Bool
  | [d] => d.isDigit
  | [t, d] => t.isDigit && t.toNat < 54 && d.isDigit
  | _ => false

/-- A first digit of a class, then digits and underscores. -/
def isGrouped (first : Char → Bool) : List Char → Bool
  | [] => false
  | c :: rest => first c && rest.all isDigitOrUnderscore

def isNonZeroDigit (c : Char) : Bool := c.isDigit && c != '0'

/-- Whole numbers are binary, octal, decimal, hexadecimal, or to the base sixty. -/
def looksLikeInt (cs : List Char) : Bool :=
  match dropSign cs with
  | ['0'] => true
  | '0' :: 'b' :: rest => isRun (fun c => c == '0' || c == '1' || c == '_') rest
  | '0' :: 'x' :: rest => isRun (fun c => (Hex.value? c).isSome || c == '_') rest
  | '0' :: rest => isRun (fun c => ('0' ≤ c && c ≤ '7') || c == '_') rest
  | body =>
    match Text.splitAt ':' body with
    | [] => false
    | first :: parts => isGrouped isNonZeroDigit first && parts.all isSixtieth

/-- A sign and digits after the mark of an exponent, or nothing. -/
def isExponent : List Char → Bool
  | [] => true
  | e :: sign :: digits =>
    (e == 'e' || e == 'E') && (sign == '+' || sign == '-') && isRun Char.isDigit digits
  | _ => false

def isFraction (cs : List Char) : Bool :=
  isExponent (cs.dropWhile isDigitOrUnderscore)

/-- A number to the base sixty whose last part has a fraction. -/
def isSixtiethFloat (cs : List Char) : Bool :=
  match Text.splitAt ':' cs with
  | first :: second :: parts =>
    let all := second :: parts
    let last := all.getLast?.getD []
    isGrouped Char.isDigit first && all.dropLast.all isSixtieth &&
      isSixtieth (last.takeWhile (· != '.')) &&
      (match last.dropWhile (· != '.') with
        | [] => false
        | _ :: fraction => fraction.all isDigitOrUnderscore)
  | _ => false

def looksLikeFloat (cs : List Char) : Bool :=
  let unsigned := dropSign cs
  let infinite := [".inf", ".Inf", ".INF"].any fun w => w.toList == unsigned
  let nan := [".nan", ".NaN", ".NAN"].any fun w => w.toList == cs
  let whole := cs.head? != some '.' && unsigned.head? != some '.' &&
    isGrouped Char.isDigit (unsigned.takeWhile (· != '.')) &&
    (match unsigned.dropWhile (· != '.') with
      | [] => false
      | _ :: fraction => isFraction fraction)
  let bare := match cs with
    | '.' :: d :: rest => d.isDigit && isFraction rest
    | _ => false
  infinite || nan || whole || bare || isSixtiethFloat unsigned

end Tag

/-- The parts of a timestamp; those of the clock are missing in a date. -/
structure TimeParts where
  date : List (List Char)
  clock : List (List Char)
  fraction : List Char
  zone : Option Int

namespace TimeParts

/-- A run of digits whose length lies within two bounds, and what follows. -/
def digits? (least most : Nat) (cs : List Char) : Option (List Char × List Char) :=
  let run := (cs.take most).takeWhile Char.isDigit
  if least ≤ run.length then some (run, cs.drop run.length) else none

def mark? (marks : List Char) : List Char → Option (List Char)
  | [] => none
  | c :: rest => if marks.contains c then some rest else none

def dropBlanks (cs : List Char) : List Char :=
  cs.dropWhile fun c => c == ' ' || c == '\t'

def number (cs : List Char) : Int :=
  (cs.foldl (fun n c => 10 * n + (c.toNat - 48)) 0 : Nat)

def zoneMinutes? (cs : List Char) : Option Int :=
  match digits? 1 2 cs with
  | some (hours, []) => some (60 * number hours)
  | some (hours, ':' :: minutes) =>
    if minutes.length == 2 && minutes.all Char.isDigit then some (60 * number hours + number minutes)
    else none
  | _ => none

/-- The zone at the end, in minutes ahead of universal time, or nothing at all. -/
def zone? (cs : List Char) : Option (Option Int) :=
  if cs.isEmpty then some none
  else
    match dropBlanks cs with
    | ['Z'] => some (some 0)
    | '+' :: rest => (zoneMinutes? rest).map some
    | '-' :: rest => (zoneMinutes? rest).map fun minutes => some (-minutes)
    | _ => none

/-- The mark between date and clock: a letter, or blanks. -/
def clockStart? : List Char → Option (List Char)
  | [] => none
  | c :: rest =>
    if c == 'T' || c == 't' then some rest
    else if c == ' ' || c == '\t' then some (dropBlanks rest)
    else none

def ofText? (cs : List Char) : Option TimeParts := do
  let (year, rest) ← digits? 4 4 (Text.dropLineFeed cs)
  let (month, rest) ← digits? 1 2 (← mark? ['-'] rest)
  let (day, rest) ← digits? 1 2 (← mark? ['-'] rest)
  if rest.isEmpty then return ⟨[year, month, day], [], [], none⟩
  let (hour, rest) ← digits? 1 2 (← clockStart? rest)
  let (minute, rest) ← digits? 2 2 (← mark? [':'] rest)
  let (second, rest) ← digits? 2 2 (← mark? [':'] rest)
  let (fraction, rest) := match rest with
    | '.' :: rest => (rest.takeWhile Char.isDigit, rest.dropWhile Char.isDigit)
    | rest => ([], rest)
  return ⟨[year, month, day], [hour, minute, second], fraction, ← zone? rest⟩

/-- A timestamp without clock needs two digits for month and day. -/
def isFull (t : TimeParts) : Bool :=
  !t.clock.isEmpty || (t.date.drop 1).all fun part => part.length == 2

/-- Millionths of a second from the first six digits of a fraction. -/
def microsecond (fraction : List Char) : Int :=
  number ((fraction ++ List.replicate 6 '0').take 6)

def farZone (minutes : Int) : String :=
  "offset must be a timedelta strictly between -timedelta(hours=24) and timedelta(hours=24), not " ++
    spanLiteral minutes ++ "."

/-- The date or moment of a timestamp. Its zone is looked at first. -/
def scalar (t : TimeParts) : Except Fault Scalar := do
  let part (parts : List (List Char)) (i : Nat) : Int := number (parts.getD i [])
  if let some minutes := t.zone then
    if 1440 ≤ minutes.natAbs then throw (.number (farZone minutes))
  let calendar {α : Type} (r : Except CalendarFault α) : Except Fault α :=
    r.mapError fun fault => .number fault.message
  let date ← calendar <| Day.ofNumbers (part t.date 0) (part t.date 1) (part t.date 2)
  if t.clock.isEmpty then return .day date
  let clock ← calendar <| Clock.ofNumbers (part t.clock 0) (part t.clock 1) (part t.clock 2)
    (microsecond t.fraction)
  return .moment ⟨date, clock, t.zone⟩

end TimeParts

namespace Tag

def looksLikeTimestamp (cs : List Char) : Bool :=
  ((TimeParts.ofText? cs).map TimeParts.isFull).getD false

/-- The tag that plain text gets. One line feed may follow the text, unless there is nothing else. Three
marks that stand alone have a tag without meaning. -/
def ofPlain (s : String) : Tag :=
  let cs := Text.dropLineFeed s.toList
  let plain := String.ofList cs
  if trueTexts.contains plain || falseTexts.contains plain then bool
  else if looksLikeFloat cs then float
  else if looksLikeInt cs then int
  else if plain == "<<" then merge
  else if nullTexts.contains plain && (s == "" || plain != "") then null
  else if looksLikeTimestamp cs then timestamp
  else if plain == "=" then standing
  else if ["!", "&", "*"].contains plain then other
  else str

end Tag

/-! The values of scalars. -/

def wholePart (base : Nat) (cs : List Char) : Except Fault Int :=
  let text := String.ofList cs
  let result := if base == 10 then Whole.parse text else Whole.parseIn base text
  result.mapError fun fault => .number (fault.message (Quoted.text text))

def floatPart (cs : List Char) : Except Fault Binary64 :=
  match Binary64.parse? (String.ofList cs) with
  | some x => .ok x
  | none =>
    .error (.number ("could not convert string to float: " ++ Quoted.text (String.ofList cs)))

/-- A whole number in any of its bases, underscores ignored. -/
def readInt (s : String) : Except Fault Int := do
  let cs := s.toList.filter (· != '_')
  let body := Tag.dropSign cs
  let factor : Int := if cs.head? == some '-' then -1 else 1
  let inBase (base : Nat) (digits : List Char) : Except Fault Int := do
    return factor * (← wholePart base digits)
  match body with
  | [] => throw .noNumber
  | ['0'] => return 0
  | '0' :: 'b' :: digits => inBase 2 digits
  | '0' :: 'x' :: digits => inBase 16 digits
  | '0' :: digits => inBase 8 ('0' :: digits)
  | _ =>
    let parts ← (Text.splitAt ':' body).mapM (wholePart 10)
    return factor * parts.foldl (fun n part => 60 * n + part) 0

/-- The parts of a number to the base sixty added up, from the last. A weight that is out of range is an
error even for nothing. -/
def sixtiethSum : Nat → Binary64 → List Binary64 → Except Fault Binary64
  | _, sum, [] => .ok sum
  | weight, sum, part :: rest =>
    match Binary64.ofInt weight with
    | .infinite _ => .error (.range "int too large to convert to float")
    | x => sixtiethSum (60 * weight) (sum.add (part.mul x)) rest

/-- A number with a fraction, infinity or NaN, underscores ignored. -/
def readFloat (s : String) : Except Fault Binary64 := do
  let cs := (Text.lower s).toList.filter (· != '_')
  let body := Tag.dropSign cs
  let signed (x : Binary64) : Binary64 := if cs.head? == some '-' then x.neg else x
  if cs.isEmpty then throw .noNumber
  else if body == ".inf".toList then return signed (.infinite false)
  else if body == ".nan".toList then return .nan
  else
    match ← (Text.splitAt ':' body).mapM floatPart with
    | [x] => return signed x
    | parts => return signed (← sixtiethSum 1 (.ofInt 0) parts.reverse)

def readBool (s : String) : Except Fault Bool :=
  let lower := Text.lower s
  if Tag.trueTexts.contains lower then .ok true
  else if Tag.falseTexts.contains lower then .ok false
  else .error (.noTruth lower)

def readTimestamp (s : String) : Except Fault Scalar :=
  match TimeParts.ofText? s.toList with
  | none => .error .noDate
  | some parts => parts.scalar

def sixBits? (c : Char) : Option Nat :=
  let n := c.toNat
  if 65 ≤ n && n ≤ 90 then some (n - 65)
  else if 97 ≤ n && n ≤ 122 then some (n - 71)
  else if 48 ≤ n && n ≤ 57 then some (n + 4)
  else if c == '+' then some 62
  else if c == '/' then some 63
  else none

/-- Reads base 64 text, in which only letters and padding count. `place` counts the letters of the
group so far, `left` holds the bits of the last one that make no byte yet, and `pads` counts the padding
since then. Padding that completes a group of two letters or more ends the text. -/
def base64? (place left pads : Nat) : List Char → Option Bytes
  | [] => if place == 0 then some [] else none
  | c :: rest =>
    if c == '=' then
      if 2 ≤ place then if 4 ≤ place + pads + 1 then some [] else base64? place left (pads + 1) rest
      else base64? place left pads rest
    else
      match sixBits? c with
      | none => base64? place left pads rest
      | some bits =>
        match place with
        | 0 => base64? 1 bits 0 rest
        | 1 => (base64? 2 (bits % 16) 0 rest).map (UInt8.ofNat (4 * left + bits / 16) :: ·)
        | 2 => (base64? 3 (bits % 4) 0 rest).map (UInt8.ofNat (16 * left + bits / 4) :: ·)
        | _ => (base64? 0 0 0 rest).map (UInt8.ofNat (64 * left + bits) :: ·)

/-- Bytes from base 64 text, which is ASCII. -/
def readBytes (s : String) : Except Fault Bytes :=
  if s.toList.all fun c => c.toNat < 128 then
    match base64? 0 0 0 s.toList with
    | some bytes => .ok bytes
    | none => .error .value
  else .error .value

def readScalar (tag : Tag) (s : String) : Except Fault Scalar :=
  match tag with
  | .null => .ok .null
  | .bool => .bool <$> readBool s
  | .int => .int <$> readInt s
  | .float => .float <$> readFloat s
  | .timestamp => readTimestamp s
  | .bytes => .bytes <$> readBytes s
  | .str => .ok (.str s)
  | _ => .error .value

/-- The same of a text that may be torn. Only texts are made of torn ones, and nothing. -/
def readSpelled (tag : Tag) : Text.Spelled → Except Fault Scalar
  | .whole s => readScalar tag s
  | .torn t =>
    match tag with
    | .null => .ok .null
    | .str => .ok (.torn t)
    | _ => .error .value

end Leasehold.Yaml
