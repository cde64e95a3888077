import Leasehold.Yaml.Cursor

/-! Block scalars: text that goes on as long as its lines are indented. A literal one keeps its line
ends, a folded one joins lines that start with no blank. A mark may keep or drop the last line ends,
another may give the indentation. -/

namespace Leasehold.Yaml.Block

/-- What happens to the line ends at the end of the text. -/
inductive Chomping
  | clip
  | strip
  | keep
deriving DecidableEq, Repr

structure Header where
  chomping : Chomping
  increment : Option Nat
deriving DecidableEq, Repr

def chomping? : Option Char → Option Chomping
  | some '+' => some .keep
  | some '-' => some .strip
  | _ => none

/-- The digit of an indentation mark; zero is not allowed. -/
def increment? : Option Char → Option Nat
  | some c => if c.isDigit then some (c.toNat - 48) else none
  | none => none

def header (c : Cursor) : Except Fault (Header × Cursor) :=
  let (first, c) := match chomping? c.peek with
    | some m => (some m, c.advance)
    | none => (none, c)
  let (increment, c) := match increment? c.peek with
    | some n => (some n, c.advance)
    | none => (none, c)
  let (second, c) := match first, increment, chomping? c.peek with
    | none, some _, some m => (some m, c.advance)
    | first, _, _ => (first, c)
  if increment == some 0 || !isSpaceOrEnd c.peek then .error .lexical
  else .ok (⟨second.getD .clip, increment⟩, c)

def skipHeaderEnd (c : Cursor) : Except Fault Cursor :=
  let c := c.skipSpaces
  let c := if c.peek == some '#' then c.takeLine.2 else c
  if isEnd c.peek then .ok c.lineBreak.2 else .error .lexical

/-- Passes empty lines before the text: their ends, and the deepest column seen. -/
def leadingBreaks : Nat → Cursor → List Char × Nat × Cursor
  | 0, c => ([], 0, c)
  | fuel + 1, c =>
    match c.peek with
    | some ' ' =>
      let next := c.advance
      let (breaks, deepest, after) := leadingBreaks fuel next
      (breaks, max next.column deepest, after)
    | some ch =>
      if isBreak ch then
        let (here, next) := c.lineBreak
        let (breaks, deepest, after) := leadingBreaks fuel next
        (here ++ breaks, deepest, after)
      else ([], 0, c)
    | none => ([], 0, c)

def skipIndent (indent : Nat) : Nat → Cursor → Cursor
  | 0, c => c
  | fuel + 1, c =>
    if c.column < indent && c.peek == some ' ' then skipIndent indent fuel c.advance else c

/-- Passes empty lines, indented to a column at most: their ends. -/
def breaks (indent : Nat) : Nat → Cursor → List Char × Cursor
  | 0, c => ([], c)
  | fuel + 1, c =>
    let c := skipIndent indent c.rest.length c
    match c.peek with
    | some ch =>
      if isBreak ch then
        let (here, next) := c.lineBreak
        let (more, after) := breaks indent fuel next
        (here ++ more, after)
      else ([], c)
    | none => ([], c)

/-- A text line stands at a place: at its column, and with anything on it. -/
def hasLine (indent : Nat) (c : Cursor) : Bool :=
  c.column == indent && c.peek.isSome

def startsBlank (c : Cursor) : Bool :=
  c.peek == some ' ' || c.peek == some '\t'

/-- What stands between two text lines: a space where the first is folded into the second. -/
def lineJoint (folded firstBlank secondBlank : Bool) (lineEnd gap : List Char) : List Char :=
  if folded && lineEnd == ['\n'] && !firstBlank && !secondBlank then
    if gap.isEmpty then [' '] else []
  else lineEnd

/-- The text from its first line on, the last line's end, and the ends of the empty lines after it. -/
def lines (folded : Bool) (indent : Nat) :
    Nat → Cursor → List Char × List Char × List Char × Cursor
  | 0, c => ([], [], [], c)
  | fuel + 1, c =>
    let blank := startsBlank c
    let (line, c) := c.takeLine
    let (lineEnd, c) := c.lineBreak
    let (gap, c) := breaks indent (c.rest.length + 1) c
    if hasLine indent c then
      let joint := lineJoint folded blank (startsBlank c) lineEnd gap
      let (more, lastEnd, lastGap, after) := lines folded indent fuel c
      (line ++ joint ++ gap ++ more, lastEnd, lastGap, after)
    else (line, lineEnd, gap, c)

/-- Reads a block scalar in a block of a given indentation. -/
def scan (folded : Bool) (outer : Int) (c : Cursor) : Except Fault (String × Cursor) := do
  let (header, c) ← header c.advance
  let c ← skipHeaderEnd c
  let least := (max (outer + 1) 1).toNat
  let fuel := c.rest.length + 1
  let (first, indent, c) := match header.increment with
    | some n =>
      let indent := least + n - 1
      let (first, c) := breaks indent fuel c
      (first, indent, c)
    | none =>
      let (first, deepest, c) := leadingBreaks fuel c
      (first, max least deepest, c)
  let (text, lastEnd, lastGap, c) :=
    if hasLine indent c then
      let (text, lastEnd, lastGap, c) := lines folded indent fuel c
      (first ++ text, lastEnd, lastGap, c)
    else ([], [], first, c)
  let tail := match header.chomping with
    | .strip => []
    | .clip => lastEnd
    | .keep => lastEnd ++ lastGap
  return (String.ofList (text ++ tail), c)

end Leasehold.Yaml.Block
