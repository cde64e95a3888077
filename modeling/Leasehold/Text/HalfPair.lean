/-! Characters beyond sixteen bits are pairs of units in some formats. Half a pair is no character, yet
it may be written by its code. A text that such a half stands in is torn, and is kept apart from the
whole ones, which are made of characters only. -/

namespace Leasehold.Text

/-- Half a pair by its place among the halves, the first ones of pairs before the second ones. -/
structure Half where
  place : Fin 0x800
deriving DecidableEq, Repr

def Half.unit (h : Half) : Nat := 0xD800 + h.place

def Half.isFirst (h : Half) : Bool := h.place < 0x400

def pairChar (first second : Half) : Char :=
  Char.ofNat (0x10000 + first.place * 0x400 + (second.place - 0x400 : Nat))

inductive Code
  | char (c : Char)
  | half (h : Half)
deriving DecidableEq, Repr

namespace Code

def ofNat (n : Nat) : Code :=
  if isHalf : 0xD800 ≤ n ∧ n < 0xE000 then .half ⟨n - 0xD800, by omega⟩ else .char (Char.ofNat n)

def char? : Code → Option Char
  | .char c => some c
  | .half _ => none

/-- Puts a code before others. Two halves that meet become their character. -/
def join (code : Code) (codes : List Code) : List Code :=
  match code, codes with
  | .half first, .half second :: rest =>
    if first.isFirst && !second.isFirst then .char (pairChar first second) :: rest
    else .half first :: .half second :: rest
  | code, codes => code :: codes

def joined (codes : List Code) : List Code :=
  codes.foldr join []

end Code

/-- A text with halves of pairs in it: what stands before the first of them, that one, and what follows. -/
structure Torn where
  before : String
  half : Half
  after : List Code
deriving DecidableEq, Repr

inductive Spelled
  | whole (s : String)
  | torn (t : Torn)
deriving DecidableEq, Repr, Inhabited

def Torn.codes (t : Torn) : List Code :=
  t.before.toList.map .char ++ .half t.half :: t.after

namespace Spelled

def ofCodes (codes : List Code) : Spelled :=
  let isChar (code : Code) := code.char?.isSome
  let before := String.ofList ((codes.takeWhile isChar).filterMap Code.char?)
  match codes.dropWhile isChar with
  | .half h :: after => .torn ⟨before, h, after⟩
  | _ => .whole before

def whole? : Spelled → Option String
  | .whole s => some s
  | .torn _ => none

end Spelled

end Leasehold.Text
