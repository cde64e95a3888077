import Leasehold.Text.Hex
import Leasehold.Yaml.Cursor

/-! Flow scalars: text in single or double quotes, and plain text without. They may go over several
lines, which are then folded: a line's end becomes a space, and of several the first is dropped. -/

namespace Leasehold.Yaml.Flow

/-- What a run of line ends folds into, given the first and the others. -/
def fold (first others : List Char) : List Char :=
  if first != ['\n'] then first ++ others
  else if others.isEmpty then [' ']
  else others

/-- Passes empty lines inside quotes: their ends. A document marker may not start a line. -/
def quotedBreaks : Nat → Cursor → Except Fault (List Char × Cursor)
  | 0, c => .ok ([], c)
  | fuel + 1, c =>
    if c.isAnyMarker then .error .lexical
    else
      let c := (c.takeWhile fun ch => ch == ' ' || ch == '\t').2
      match c.peek with
      | some ch =>
        if isBreak ch then do
          let (here, next) := c.lineBreak
          let (more, after) ← quotedBreaks fuel next
          return (here ++ more, after)
        else .ok ([], c)
      | none => .ok ([], c)

/-- Blanks inside quotes, folded if they hold a line's end. -/
def quotedBlanks (c : Cursor) : Except Fault (List Char × Cursor) :=
  let (blanks, c) := c.takeWhile fun ch => ch == ' ' || ch == '\t'
  match c.peek with
  | none => .error .lexical
  | some ch =>
    if isBreak ch then do
      let (first, c) := c.lineBreak
      let (others, c) ← quotedBreaks (c.rest.length + 1) c
      return (fold first others, c)
    else .ok (blanks, c)

def shortEscape? (c : Char) : Option Char :=
  match c with
  | '0' => some '\x00'
  | 'a' => some '\x07'
  | 'b' => some '\x08'
  | 't' => some '\t'
  | '\t' => some '\t'
  | 'n' => some '\n'
  | 'v' => some '\x0b'
  | 'f' => some '\x0c'
  | 'r' => some '\r'
  | 'e' => some '\x1b'
  | ' ' => some ' '
  | '"' => some '"'
  | '\\' => some '\\'
  | '/' => some '/'
  | 'N' => some '\x85'
  | '_' => some '\u00A0'
  | 'L' => some '\u2028'
  | 'P' => some '\u2029'
  | _ => none

def codeLength? (c : Char) : Option Nat :=
  match c with
  | 'x' => some 2
  | 'u' => some 4
  | 'U' => some 8
  | _ => none

/-- The text of a code that was read. A code may be beyond all characters. -/
def codeText (n : Nat) : Except Fault (List Text.Code) :=
  if n < 0x110000 then .ok [.ofNat n]
  else if n < 0x80000000 then .error (.number "chr() arg not in range(0x110000)")
  else .error (.range "Python int too large to convert to C int")

def scanEscape (c : Cursor) : Except Fault (List Text.Code × Cursor) :=
  match c.peek with
  | none => .error .lexical
  | some ch =>
    match shortEscape? ch, codeLength? ch with
    | some plain, _ => .ok ([.char plain], c.advance)
    | none, some length =>
      let digits := c.advance.rest.take length
      match digits.mapM Hex.value? with
      | some values =>
        let n := values.foldl (fun n v => 16 * n + v) 0
        if values.length == length then do return (← codeText n, c.advance.skip length)
        else .error .lexical
      | none => .error .lexical
    | none, none =>
      if isBreak ch then do
        let c := c.lineBreak.2
        let (breaks, c) ← quotedBreaks (c.rest.length + 1) c
        return (breaks.map .char, c)
      else .error .lexical

def scanQuotedRest (quote : Char) : Nat → Cursor → Except Fault (List Text.Code × Cursor)
  | 0, _ => .error .lexical
  | fuel + 1, c =>
    match c.peek with
    | none => .error .lexical
    | some ch =>
      if ch == quote then
        if quote == '\'' && c.peekAt 1 == some '\'' then do
          let (more, after) ← scanQuotedRest quote fuel (c.skip 2)
          return (.char '\'' :: more, after)
        else .ok ([], c.advance)
      else do
        let (here, next) ←
          if ch == ' ' || ch == '\t' || isBreak ch then do
            let (blanks, c) ← quotedBlanks c
            pure (blanks.map .char, c)
          else if ch == '\\' && quote == '"' then scanEscape c.advance
          else pure ([.char ch], c.advance)
        let (more, after) ← scanQuotedRest quote fuel next
        return (here ++ more, after)

def scanQuoted (c : Cursor) : Except Fault (Text.Spelled × Cursor) := do
  let (text, after) ← scanQuotedRest (c.peek.getD '"') (c.rest.length + 1) c.advance
  return (.ofCodes text, after)

/-- Brackets and commas end plain text inside brackets only. -/
def endsPlain (inFlow : Bool) (ch : Char) (next : Option Char) : Bool :=
  isBlankOrEnd (some ch) ||
    (ch == ':' &&
      (isBlankOrEnd next || (inFlow && next.any fun n => ",[]\x7b\x7d".toList.contains n))) ||
    (inFlow && ",?[]\x7b\x7d".toList.contains ch)

def plainRun (inFlow : Bool) : List Char → List Char
  | [] => []
  | ch :: rest => if endsPlain inFlow ch rest.head? then [] else ch :: plainRun inFlow rest

/-- Passes empty lines after plain text: their ends, or nothing if a document marker follows. -/
def plainBreaks : Nat → Cursor → Option (List Char) × Cursor
  | 0, c => (some [], c)
  | fuel + 1, c =>
    match c.peek with
    | some ' ' => plainBreaks fuel c.advance
    | some ch =>
      if isBreak ch then
        let (here, next) := c.lineBreak
        if next.isAnyMarker then (none, next)
        else
          let (more, after) := plainBreaks fuel next
          (more.map (here ++ ·), after)
      else (some [], c)
    | none => (some [], c)

/-- Blanks after plain text, folded if they hold a line's end; whether they do is told too. Nothing is
given if the text cannot go on after them. -/
def plainBlanks (c : Cursor) : List Char × Bool × Cursor :=
  let (blanks, c) := c.takeWhile (· == ' ')
  match c.peek with
  | some ch =>
    if isBreak ch then
      let (first, next) := c.lineBreak
      if next.isAnyMarker then ([], true, next)
      else
        let (others, after) := plainBreaks (next.rest.length + 1) next
        ((others.map (fold first)).getD [], true, after)
    else (blanks, false, c)
  | none => (blanks, false, c)

/-- Reads plain text that goes on while its lines are indented. `blanks` stands between the text so far
and what follows, and `broke` tells whether it held a line's end. -/
def scanPlainRest (inFlow : Bool) (indent : Int) :
    Nat → List Char → Bool → Cursor → List Char × Bool × Cursor
  | 0, _, broke, c => ([], broke, c)
  | fuel + 1, blanks, broke, c =>
    let run := plainRun inFlow c.rest
    if c.peek == some '#' || run.isEmpty then ([], broke, c)
    else
      let (between, broke, after) := plainBlanks (c.skip run.length)
      if between.isEmpty || after.peek == some '#' || (!inFlow && (after.column : Int) < indent) then
        (blanks ++ run, broke, after)
      else
        let (more, broke, last) := scanPlainRest inFlow indent fuel between broke after
        (blanks ++ run ++ more, broke, last)

/-- Reads plain text in a block of a given indentation. Tells whether a line's end was passed after its
last character, after which a key may start. -/
def scanPlain (inFlow : Bool) (outer : Int) (c : Cursor) : String × Bool × Cursor :=
  let (text, broke, after) := scanPlainRest inFlow (outer + 1) (c.rest.length + 1) [] false c
  (String.ofList text, broke, after)

end Leasehold.Yaml.Flow
