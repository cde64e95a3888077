import Leasehold.Yaml.Block
import Leasehold.Yaml.Flow
import Leasehold.Yaml.Token

/-! The tokens of a document's text. Blocks open where a line stands deeper than the block around it
and close where one stands less deep. A simple key is known as a key only by the colon after it, so
its place is remembered, and its token is put there when the colon comes. -/

namespace Leasehold.Yaml

/-- A place where a simple key may have started: how many tokens came before, whether the colon must
come, and where it stands. -/
structure SimpleKey where
  tokenCount : Nat
  required : Bool
  index : Nat
  line : Nat
  column : Nat
deriving Repr

/-- What the reader of tokens remembers. The tokens are kept last first. A possible key is kept for
each level of brackets. -/
structure Stream where
  cursor : Cursor
  tokens : List Token
  level : Nat
  indent : Int
  outer : List Int
  keyAllowed : Bool
  keys : List (Nat × SimpleKey)

namespace Stream

def start (cs : List Char) : Stream := ⟨.ofText cs, [], 0, -1, [], true, []⟩

def push (s : Stream) (t : Token) : Stream :=
  { s with tokens := t :: s.tokens }

def inFlow (s : Stream) : Bool := s.level != 0

def column (s : Stream) : Int := s.cursor.column

def insertAfter (s : Stream) (count : Nat) (t : Token) : Stream :=
  let later := s.tokens.length - count
  { s with tokens := s.tokens.take later ++ t :: s.tokens.drop later }

/-- Opens a block at a column that is deeper than the block around it. -/
def addIndent (s : Stream) (column : Int) : Bool × Stream :=
  if s.indent < column then (true, { s with indent := column, outer := s.indent :: s.outer })
  else (false, s)

def unwind (column : Int) : List Int → Stream → Stream
  | [], s => s
  | above :: outer, s =>
    if column < s.indent then
      unwind column outer { s.push .blockEnd with indent := above, outer := outer }
    else s

/-- Closes blocks outside brackets. -/
def unwindIndent (s : Stream) (column : Int) : Stream :=
  if s.inFlow then s else unwind column s.outer s

/-- Forgets the possible key of this level. A required one must have found its colon. -/
def removeKey (s : Stream) : Except Fault Stream :=
  match s.keys.lookup s.level with
  | some key =>
    if key.required then .error .lexical
    else .ok { s with keys := s.keys.filter fun k => k.1 != s.level }
  | none => .ok s

/-- Notes that a simple key may start here. -/
def saveKey (s : Stream) : Except Fault Stream := do
  if s.keyAllowed then
    let required := !s.inFlow && s.indent == s.column
    let s ← s.removeKey
    let c := s.cursor
    return { s with
      keys := (s.level, ⟨s.tokens.length, required, c.index, c.line, c.column⟩) :: s.keys }
  else return s

/-- A simple key stands on one line and is at most this long. -/
def keyLimit : Nat := 1024

def isStale (s : Stream) (key : SimpleKey) : Bool :=
  key.line != s.cursor.line || keyLimit < s.cursor.index - key.index

/-- Forgets the possible keys that the colon can no longer follow. -/
def dropStaleKeys (s : Stream) : Except Fault Stream :=
  if s.keys.any fun k => s.isStale k.2 && k.2.required then .error .lexical
  else .ok { s with keys := s.keys.filter fun k => !s.isStale k.2 }

/-- Passes spaces, comments and line ends. After a line's end outside brackets a key may start. -/
def skipToToken : Nat → Stream → Stream
  | 0, s => s
  | fuel + 1, s =>
    let c := s.cursor.skipSpaces
    let c := if c.peek == some '#' then c.takeLine.2 else c
    match c.peek with
    | some ch =>
      if isBreak ch then
        skipToToken fuel
          { s with cursor := c.lineBreak.2, keyAllowed := s.keyAllowed || !s.inFlow }
      else { s with cursor := c }
    | none => { s with cursor := c }

/-- A token of a fixed width, after which a key may or may not start. -/
def fixed (s : Stream) (t : Token) (width : Nat) (keyAllowed : Bool) : Stream :=
  { s.push t with cursor := s.cursor.skip width, keyAllowed := keyAllowed }

/-- Closes all blocks before a token of the document's structure. -/
def closeBlocks (s : Stream) : Except Fault Stream := do
  let s ← (s.unwindIndent (-1)).removeKey
  return { s with keyAllowed := false }

def openFlow (s : Stream) (t : Token) : Except Fault Stream := do
  let s ← s.saveKey
  return { s.fixed t 1 true with level := s.level + 1 }

def closeFlow (s : Stream) (t : Token) : Except Fault Stream := do
  let s ← s.removeKey
  if s.inFlow then return { s.fixed t 1 false with level := s.level - 1 } else throw .grammar

/-- Opens a block for an indicator outside brackets, where one is allowed. -/
def openBlock (s : Stream) (t : Token) : Except Fault Stream :=
  if s.inFlow then .ok s
  else if s.keyAllowed then
    let (opened, s) := s.addIndent s.column
    .ok (if opened then s.push t else s)
  else .error .lexical

def blockEntry (s : Stream) : Except Fault Stream := do
  let s ← (← s.openBlock .blockSequenceStart).removeKey
  return s.fixed .blockEntry 1 true

def explicitKey (s : Stream) : Except Fault Stream := do
  let s ← (← s.openBlock .blockMappingStart).removeKey
  return s.fixed .key 1 (!s.inFlow)

/-- A colon makes a key of what was noted at this level, or else stands for a value without key. -/
def value (s : Stream) : Except Fault Stream := do
  match s.keys.lookup s.level with
  | some key =>
    let s := { s with keys := s.keys.filter fun k => k.1 != s.level }
    let s := s.insertAfter key.tokenCount .key
    let (opened, s) := if s.inFlow then (false, s) else s.addIndent key.column
    let s := if opened then s.insertAfter key.tokenCount .blockMappingStart else s
    return s.fixed .value 1 false
  | none =>
    let s ← (← s.openBlock .blockMappingStart).removeKey
    return s.fixed .value 1 (!s.inFlow)

def keyPart (s : Stream) (read : Cursor → Except Fault (Token × Cursor)) : Except Fault Stream := do
  let s ← s.saveKey
  let (t, c) ← read s.cursor
  return { s.push t with cursor := c, keyAllowed := false }

def blockScalar (s : Stream) (folded : Bool) : Except Fault Stream := do
  let s ← s.removeKey
  let (text, c) ← Block.scan folded s.indent s.cursor
  return { s.push (.scalar (.whole text) false) with cursor := c, keyAllowed := true }

def plainScalar (s : Stream) : Except Fault Stream := do
  let s ← s.saveKey
  let (text, broke, c) := Flow.scanPlain s.inFlow s.indent s.cursor
  return { s.push (.scalar (.whole text) true) with cursor := c, keyAllowed := broke }

/-- Some indicators start plain text if no blank follows. -/
def startsPlain (s : Stream) (ch : Char) : Bool :=
  if "-?:,[]\x7b\x7d#&*!|>'\"%@\x60".toList.contains ch then
    !isBlankOrEnd (s.cursor.peekAt 1) && (ch == '-' || (!s.inFlow && (ch == '?' || ch == ':')))
  else !isBlankOrEnd (some ch)

def next (s : Stream) (ch : Char) : Except Fault Stream :=
  let c := s.cursor
  let blankFollows := isBlankOrEnd (c.peekAt 1)
  if ch == '%' && c.column == 0 then do
    let s ← s.closeBlocks
    let (d, c) ← scanDirective s.cursor
    return { s.push (.directive d) with cursor := c }
  else if c.column == 0 && c.isMarker "---" then do
    return (← s.closeBlocks).fixed .documentStart 3 false
  else if c.column == 0 && c.isMarker "..." then do
    return (← s.closeBlocks).fixed .documentEnd 3 false
  else if ch == '[' then s.openFlow .flowSequenceStart
  else if ch == '\x7b' then s.openFlow .flowMappingStart
  else if ch == ']' then s.closeFlow .flowSequenceEnd
  else if ch == '\x7d' then s.closeFlow .flowMappingEnd
  else if ch == ',' then do
    return (← s.removeKey).fixed .flowEntry 1 true
  else if ch == '-' && blankFollows then s.blockEntry
  else if ch == '?' && (s.inFlow || blankFollows) then s.explicitKey
  else if ch == ':' && (s.inFlow || blankFollows) then s.value
  else if ch == '*' then s.keyPart fun c => do
    let (name, c) ← scanName c
    return (.alias name, c)
  else if ch == '&' then s.keyPart fun c => do
    let (name, c) ← scanName c
    return (.anchor name, c)
  else if ch == '!' then s.keyPart fun c => do
    let (tag, c) ← scanTag c
    return (.tag tag, c)
  else if ch == '|' && !s.inFlow then s.blockScalar false
  else if ch == '>' && !s.inFlow then s.blockScalar true
  else if ch == '\'' || ch == '"' then s.keyPart fun c => do
    let (text, c) ← Flow.scanQuoted c
    return (.scalar text false, c)
  else if s.startsPlain ch then s.plainScalar
  else .error .lexical

def run : Nat → Stream → Except Fault (List Token)
  | 0, _ => .error .lexical
  | fuel + 1, s => do
    let s ← (skipToToken (s.cursor.rest.length + 1) s).dropStaleKeys
    let s := s.unwindIndent s.column
    match s.cursor.peek with
    | none =>
      let s ← s.closeBlocks
      return (s.push .streamEnd).tokens.reverse
    | some ch => run fuel (← s.next ch)

end Stream

def isAllowed (c : Char) : Bool :=
  let n := c.toNat
  n == 9 || n == 10 || n == 13 || (0x20 ≤ n && n ≤ 0x7E) || n == 0x85 ||
    (0xA0 ≤ n && n ≤ 0xFFFD) || 0x10000 ≤ n

/-- The tokens of a text. A byte order mark at its start is passed over. -/
def tokens (text : List Char) : Except Fault (List Token) :=
  if text.all isAllowed then
    let s := Stream.start text
    let s := if s.cursor.peek == some '\uFEFF' then { s with cursor := s.cursor.advance } else s
    Stream.run (text.length + 2) s
  else .error .unprintable

end Leasehold.Yaml
