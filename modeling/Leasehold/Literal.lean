import Leasehold.Number.Whole
import Leasehold.Value

/-! Values as text. The literal form shows what kind of value it is: text in quotes, the three words
for null and the truth values, brackets and braces. The plain form differs only for bare text. -/

namespace Leasehold

namespace Day

def parts (d : Day) : List String :=
  [toString d.year, toString d.month, toString d.day]

end Day

namespace Clock

/-- The parts of a time, seconds and microseconds only where needed. -/
def parts (c : Clock) : List String :=
  [toString c.hour, toString c.minute] ++
    (if c.second == 0 && c.microsecond == 0 then []
     else toString c.second :: if c.microsecond == 0 then [] else [toString c.microsecond])

end Clock

/-- A length of time in call form: whole days, which take the sign, and the seconds that are left. -/
def spanLiteral (minutes : Int) : String :=
  let days := minutes.fdiv 1440
  let seconds := 60 * minutes.fmod 1440
  let parts := (if days == 0 then [] else ["days=" ++ toString days]) ++
    (if seconds == 0 then [] else ["seconds=" ++ toString seconds])
  "datetime.timedelta(" ++ (if parts.isEmpty then "0" else Text.join ", " parts) ++ ")"

/-- An offset from universal time in call form. -/
def zoneLiteral (minutes : Int) : String :=
  if minutes == 0 then "datetime.timezone.utc"
  else "datetime.timezone(" ++ spanLiteral minutes ++ ")"

def Moment.parts (m : Moment) : List String :=
  m.date.parts ++ m.clock.parts ++
    (m.offset.map fun minutes => "tzinfo=" ++ zoneLiteral minutes).toList

namespace Scalar

def literal : Scalar → String
  | .null => "None"
  | .bool b => if b then "True" else "False"
  | .int i => toString i
  | .float x => x.text
  | .str s => Quoted.text s
  | .torn t => Quoted.torn t
  | .bytes bs => Quoted.bytes bs
  | .day d => "datetime.date(" ++ Text.join ", " d.parts ++ ")"
  | .moment m => "datetime.datetime(" ++ Text.join ", " m.parts ++ ")"

/-- The plain form: text as it is, dates by their numbers, everything else as its literal. Halves of pairs are
written by their codes here too. -/
def display : Scalar → String
  | .str s => s
  | .torn t => String.ofList (t.codes.flatMap fun code => code.char?.elim (Quoted.encodeCode '"' code) ([·]))
  | .day d => d.text
  | .moment m => m.textWith " "
  | s => s.literal

def isWritable : Scalar → Bool
  | .int i => !Whole.isUnwritable i
  | _ => true

end Scalar

/-- What is shown for a value inside itself. -/
def Shape.hint : Shape → String
  | .list => "[...]"
  | .tuple => "(...)"
  | .map => "\x7b...\x7d"

namespace Value

def shape : Value → Shape
  | .map _ => .map
  | .tuple _ => .tuple
  | _ => .list

mutual
/-- The literal inside lists and maps whose names are given; one of them is only hinted at. -/
def literalIn (names : List Nat) : Value → String
  | .scalar s => s.literal
  | .list items => "[" ++ Text.join ", " (itemLiterals names items) ++ "]"
  | .tuple [item] => "(" ++ literalIn names item ++ ",)"
  | .tuple items => "(" ++ Text.join ", " (itemLiterals names items) ++ ")"
  | .set items =>
    if items.isEmpty then "set()"
    else "\x7b" ++ Text.join ", " (items.map Scalar.literal) ++ "\x7d"
  | .map entries => "\x7b" ++ Text.join ", " (entryLiterals names entries) ++ "\x7d"
  | .loop name body =>
    if names.contains name then body.shape.hint else literalIn (name :: names) body
  | .again _ shape => shape.hint

def itemLiterals (names : List Nat) : List Value → List String
  | [] => []
  | item :: rest => literalIn names item :: itemLiterals names rest

def entryLiterals (names : List Nat) : List (Scalar × Value) → List String
  | [] => []
  | (key, value) :: rest =>
    (key.literal ++ ": " ++ literalIn names value) :: entryLiterals names rest
end

def literal (v : Value) : String :=
  v.literalIn []

def display : Value → String
  | .scalar s => s.display
  | v => v.literal

mutual
def isWritable : Value → Bool
  | .scalar s => s.isWritable
  | .list items => areWritable items
  | .tuple items => areWritable items
  | .set items => items.all Scalar.isWritable
  | .map entries => entriesWritable entries
  | .loop _ body => isWritable body
  | .again _ _ => true

def areWritable : List Value → Bool
  | [] => true
  | item :: rest => isWritable item && areWritable rest

def entriesWritable : List (Scalar × Value) → Bool
  | [] => true
  | (key, value) :: rest => key.isWritable && isWritable value && entriesWritable rest
end

end Value

/-- A number as it stands in a message: six digits at most. -/
def Number.brief : Number → String
  | .int i => (Binary64.ofInt i).brief
  | .float x => x.brief

end Leasehold
