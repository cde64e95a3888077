import Leasehold.Request.WholeText
import Leasehold.Text.Utf8
import Leasehold.Value

/-! What requests are read with. Options come loosely typed, and it is for a checker of values to say what it
takes for a text, a whole number or a list. Of a checker no more is known than that it takes texts, whole
numbers and lists as they are. -/

namespace Leasehold

/-- The uuid for a request that names none, and a checker's readings of values. A value that cannot be read
has a message. -/
structure Intake where
  uuid : Bytes
  text : Value → Except String String
  whole : Value → Except String Int
  items : Value → Except String (List Value)
  text_str (s : String) : text (.str s) = .ok s
  whole_int (i : Int) : whole (.int i) = .ok i
  items_list (vs : List Value) : items (.list vs) = .ok vs

namespace Lenient

def notText : String := "Input should be a valid string"

def notWhole : String := "Input should be a valid integer"

def unreadableWhole : String := notWhole ++ ", unable to parse string as an integer"

def tooLarge : String := "Unable to parse input string as an integer, exceeded maximum size"

def undecodable : String := notText ++ ", unable to parse raw data as a unicode string"

def text : Value → Except String String
  | .scalar s =>
    match s with
    | .str s => .ok s
    | .torn _ => .error undecodable
    | .bytes bs =>
      match Utf8.decode? bs with
      | some s => .ok s
      | none => .error undecodable
    | _ => .error notText
  | _ => .error notText

def wholeText (s : String) : Except String Int :=
  match WholeText.parse s with
  | .ok i => .ok i
  | .error .unreadable => .error unreadableWhole
  | .error .tooLong => .error tooLarge

/-- A whole number may be spelled as text, or held as a binary number below 2^63. -/
def whole : Value → Except String Int
  | .scalar s =>
    match s with
    | .bool b => .ok (if b then 1 else 0)
    | .int i => .ok i
    | .float x =>
      if !x.isFinite then .error "Input should be a finite number"
      else
        match x.toInt? with
        | none => .error (notWhole ++ ", got a number with a fractional part")
        | some i => if i.natAbs < 9223372036854775808 then .ok i else .error tooLarge
    | .str s => wholeText s
    | .torn _ => .error undecodable
    | .bytes bs =>
      match Utf8.decode? bs with
      | some s => wholeText s
      | none => .error unreadableWhole
    | _ => .error notWhole
  | _ => .error notWhole

def items : Value → Except String (List Value)
  | .list vs | .tuple vs => .ok vs
  | .set xs => .ok (xs.map .scalar)
  | _ => .error "Input should be a valid list"

end Lenient

def Intake.lenient (uuid : Bytes) : Intake where
  uuid := uuid
  text := Lenient.text
  whole := Lenient.whole
  items := Lenient.items
  text_str _ := rfl
  whole_int _ := rfl
  items_list _ := rfl

instance : Inhabited Intake := ⟨.lenient []⟩

end Leasehold
