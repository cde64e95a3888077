import Leasehold.Text.HalfPair
import Leasehold.Text.Hex
import Leasehold.Text.Printable

/-! Texts and byte strings in quotes, as messages show them. The quote is single unless the content
holds single quotes and no double one. What cannot be printed is written by its code. -/

namespace Leasehold.Quoted

def quoteFor (content : List Char) : Char :=
  if content.contains '\'' && !content.contains '"' then '"' else '\''

def shortEscape? (quote c : Char) : Option (List Char) :=
  if c == quote || c == '\\' then some ['\\', c]
  else if c == '\n' then some ['\\', 'n']
  else if c == '\r' then some ['\\', 'r']
  else if c == '\t' then some ['\\', 't']
  else none

def codeEscape (n : Nat) : List Char :=
  if n < 0x100 then ['\\', 'x'] ++ (Hex.ofNat 2 n).toList
  else if n < 0x10000 then ['\\', 'u'] ++ (Hex.ofNat 4 n).toList
  else ['\\', 'U'] ++ (Hex.ofNat 8 n).toList

def encodeChar (quote c : Char) : List Char :=
  match shortEscape? quote c with
  | some escape => escape
  | none => if Text.isPrintable c then [c] else codeEscape c.toNat

def text (s : String) : String :=
  let content := s.toList
  let quote := quoteFor content
  String.ofList (quote :: content.flatMap (encodeChar quote) ++ [quote])

def encodeCode (quote : Char) : Text.Code → List Char
  | .char c => encodeChar quote c
  | .half h => codeEscape h.unit

def torn (t : Text.Torn) : String :=
  let quote := quoteFor (t.codes.filterMap Text.Code.char?)
  String.ofList (quote :: t.codes.flatMap (encodeCode quote) ++ [quote])

def encodeByte (quote : Char) (b : UInt8) : List Char :=
  let c := Char.ofNat b.toNat
  match shortEscape? quote c with
  | some escape => escape
  | none => if 0x20 ≤ b.toNat && b.toNat < 0x7F then [c] else codeEscape b.toNat

def bytes (content : Bytes) : String :=
  let quote := quoteFor (content.map fun b => Char.ofNat b.toNat)
  String.ofList ('b' :: quote :: content.flatMap (encodeByte quote) ++ [quote])

end Leasehold.Quoted
