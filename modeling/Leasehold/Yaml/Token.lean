import Leasehold.Text.Hex
import Leasehold.Text.Utf8
import Leasehold.Yaml.Cursor

/-! The tokens of a document, and the reading of those that start with an indicator and a name:
directives, anchors, aliases and tags. -/

namespace Leasehold.Yaml

/-- A tag as it is written: a handle and what follows it, or the whole tag. -/
structure TagText where
  handle : Option String
  suffix : String
deriving DecidableEq, Repr

/-- A directive: the version, the meaning of a tag handle, or one that is passed over. -/
inductive Directive
  | version (major minor : Nat)
  | tag (handle start : String)
  | other
deriving DecidableEq, Repr

/-- A token. Where blocks start and end follows from indentation. -/
inductive Token
  | directive (d : Directive)
  | documentStart
  | documentEnd
  | streamEnd
  | blockSequenceStart
  | blockMappingStart
  | blockEnd
  | flowSequenceStart
  | flowSequenceEnd
  | flowMappingStart
  | flowMappingEnd
  | blockEntry
  | flowEntry
  | key
  | value
  | alias (name : String)
  | anchor (name : String)
  | tag (t : TagText)
  | scalar (text : Text.Spelled) (plain : Bool)
deriving DecidableEq, Repr

def require (condition : Bool) : Except Fault Unit :=
  if condition then .ok () else .error .lexical

/-- A name after its indicator; something that cannot belong to it must follow. -/
def scanName (c : Cursor) : Except Fault (String × Cursor) := do
  let (name, after) := c.advance.takeWhile isNameChar
  require (!name.isEmpty)
  require <| isBlankOrEnd after.peek ||
    (after.peek.any fun ch => "?:,]\x7d%@\x60".toList.contains ch)
  return (String.ofList name, after)

def isTagChar (c : Char) : Bool :=
  isNameChar c || ";/?:@&=+$,.!~*'()[]".toList.contains c

/-- The bytes of a run of escapes, a percent sign and two digits each. -/
def scanEscapes : Nat → Cursor → Except Fault (Bytes × Cursor)
  | 0, c => .ok ([], c)
  | fuel + 1, c =>
    match c.rest with
    | '%' :: a :: b :: _ =>
      match Hex.value? a, Hex.value? b with
      | some high, some low => do
        let (bytes, after) ← scanEscapes fuel (c.skip 3)
        return (UInt8.ofNat (16 * high + low) :: bytes, after)
      | _, _ => .error .lexical
    | '%' :: _ => .error .lexical
    | _ => .ok ([], c)

/-- The characters of a tag, escapes read as the text that they encode. -/
def scanTagChars : Nat → Cursor → Except Fault (String × Cursor)
  | 0, c => .ok ("", c)
  | fuel + 1, c =>
    match c.peek with
    | some '%' => do
      let (bytes, after) ← scanEscapes c.rest.length c
      match Utf8.decode? bytes with
      | some text => do
        let (more, after) ← scanTagChars fuel after
        return (text ++ more, after)
      | none => .error .lexical
    | some ch =>
      if isTagChar ch then do
        let (more, after) ← scanTagChars fuel c.advance
        return (String.ofList [ch] ++ more, after)
      else .ok ("", c)
    | none => .ok ("", c)

def scanTagSuffix (c : Cursor) : Except Fault (String × Cursor) := do
  let (text, after) ← scanTagChars (c.rest.length + 1) c
  require (text != "")
  return (text, after)

/-- A tag's handle: one exclamation mark, or a name between two. -/
def scanTagHandle (c : Cursor) : Except Fault (String × Cursor) := do
  require (c.peek == some '!')
  if c.peekAt 1 == some ' ' then return ("!", c.advance)
  let (name, after) := c.advance.takeWhile isNameChar
  require (after.peek == some '!')
  return ("!" ++ String.ofList name ++ "!", after.advance)

/-- A second exclamation mark follows before the next space. -/
def hasHandle (c : Cursor) : Bool :=
  ((c.advance.rest.takeWhile fun ch => !(ch == ' ' || isBreak ch)).contains '!')

def scanTag (c : Cursor) : Except Fault (TagText × Cursor) := do
  let (tag, after) ←
    if c.peekAt 1 == some '<' then do
      let (suffix, after) ← scanTagSuffix (c.skip 2)
      require (after.peek == some '>')
      pure ((⟨none, suffix⟩ : TagText), after.advance)
    else if isBlankOrEnd (c.peekAt 1) then pure (⟨none, "!"⟩, c.advance)
    else do
      let (handle, after) ← if hasHandle c then scanTagHandle c else pure ("!", c.advance)
      let (suffix, after) ← scanTagSuffix after
      pure (⟨some handle, suffix⟩, after)
  require (isSpaceOrEnd after.peek)
  return (tag, after)

def scanDigits (c : Cursor) : Except Fault (Nat × Cursor) := do
  let (digits, after) := c.takeWhile Char.isDigit
  require (!digits.isEmpty)
  return (digits.foldl (fun n d => 10 * n + (d.toNat - 48)) 0, after)

def skipDirectiveEnd (c : Cursor) : Except Fault Cursor := do
  let c := c.skipSpaces
  let c := if c.peek == some '#' then c.takeLine.2 else c
  require (isEnd c.peek)
  return c.lineBreak.2

def scanVersion (c : Cursor) : Except Fault (Directive × Cursor) := do
  let (major, c) ← scanDigits c.skipSpaces
  require (c.peek == some '.')
  let (minor, c) ← scanDigits c.advance
  require (isSpaceOrEnd c.peek)
  return (.version major minor, c)

def scanTagDirective (c : Cursor) : Except Fault (Directive × Cursor) := do
  let (handle, c) ← scanTagHandle c.skipSpaces
  require (c.peek == some ' ')
  let (start, c) ← scanTagSuffix c.skipSpaces
  require (isSpaceOrEnd c.peek)
  return (.tag handle start, c)

def scanDirective (c : Cursor) : Except Fault (Directive × Cursor) := do
  let (name, c) := c.advance.takeWhile isNameChar
  require (!name.isEmpty && isSpaceOrEnd c.peek)
  let (directive, c) ←
    if name == "YAML".toList then scanVersion c
    else if name == "TAG".toList then scanTagDirective c
    else pure (.other, c.takeLine.2)
  return (directive, ← skipDirectiveEnd c)

end Leasehold.Yaml
