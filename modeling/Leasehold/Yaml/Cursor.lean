import Leasehold.Yaml.Fault

/-! A place in the text of a document: what follows, and where it stands. -/

namespace Leasehold.Yaml

/-- A place in a text. Lines and columns are counted from zero; a byte order mark takes no column. -/
structure Cursor where
  rest : List Char
  index : Nat
  line : Nat
  column : Nat
deriving Repr

namespace Cursor

def ofText (cs : List Char) : Cursor := ⟨cs, 0, 0, 0⟩

end Cursor

def isBreak (c : Char) : Bool :=
  c == '\n' || c == '\r' || c == '\x85' || c == '\u2028' || c == '\u2029'

def isEnd : Option Char → Bool
  | none => true
  | some c => isBreak c

def isSpaceOrEnd : Option Char → Bool
  | some ' ' => true
  | c => isEnd c

def isBlankOrEnd : Option Char → Bool
  | some '\t' => true
  | c => isSpaceOrEnd c

/-- Letters and digits of ASCII, the hyphen and the underscore, of which names are made. -/
def isNameChar (c : Char) : Bool :=
  c.isAlphanum || c == '-' || c == '_'

namespace Cursor

def peekAt (c : Cursor) (offset : Nat) : Option Char :=
  c.rest[offset]?

def peek (c : Cursor) : Option Char :=
  c.rest.head?

def advance (c : Cursor) : Cursor :=
  match c.rest with
  | [] => c
  | ch :: rest =>
    if isBreak ch then ⟨rest, c.index + 1, c.line + 1, 0⟩
    else ⟨rest, c.index + 1, c.line, if ch == '\uFEFF' then c.column else c.column + 1⟩

def skip (c : Cursor) : Nat → Cursor
  | 0 => c
  | n + 1 => c.advance.skip n

/-- The run of characters of a class, and the place after it. -/
def takeWhile (c : Cursor) (p : Char → Bool) : List Char × Cursor :=
  let run := c.rest.takeWhile p
  (run, c.skip run.length)

def skipSpaces (c : Cursor) : Cursor :=
  (c.takeWhile (· == ' ')).2

def takeLine (c : Cursor) : List Char × Cursor :=
  c.takeWhile fun ch => !isBreak ch

/-- Passes a line's end. All ends count as a line feed but the two separators of Unicode. -/
def lineBreak (c : Cursor) : List Char × Cursor :=
  match c.peek with
  | some ch =>
    if isBreak ch then ([if ch == '\u2028' || ch == '\u2029' then ch else '\n'], c.advance)
    else ([], c)
  | none => ([], c)

/-- A document marker is three characters and then a blank or an end. -/
def isMarker (c : Cursor) (marker : String) : Bool :=
  marker.toList.isPrefixOf c.rest && isBlankOrEnd (c.peekAt 3)

def isAnyMarker (c : Cursor) : Bool :=
  c.isMarker "---" || c.isMarker "..."

end Cursor

end Leasehold.Yaml
