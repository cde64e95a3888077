import Leasehold.Text.HalfPair
import Leasehold.Text.Hex

/-! Bytes as UTF-8 text. A strict reading refuses ill-formed bytes. A lenient one writes U+FFFD for
each longest beginning of a character that cannot be completed. -/

namespace Leasehold.Utf8

/-- What a lead byte asks for: its own bits, how many bytes follow, and the range of the first of
them, which excludes overlong forms, surrogates and values past U+10FFFF. -/
structure Lead where
  bits : Nat
  follow : Nat
  low : Nat
  high : Nat

/-- The demands of a byte that starts a character of several bytes. -/
def lead? (n : Nat) : Option Lead :=
  if 0xC2 ≤ n && n ≤ 0xDF then some ⟨n - 0xC0, 1, 0x80, 0xBF⟩
  else if n == 0xE0 then some ⟨0, 2, 0xA0, 0xBF⟩
  else if n == 0xED then some ⟨0xD, 2, 0x80, 0x9F⟩
  else if 0xE1 ≤ n && n ≤ 0xEF then some ⟨n - 0xE0, 2, 0x80, 0xBF⟩
  else if n == 0xF0 then some ⟨0, 3, 0x90, 0xBF⟩
  else if 0xF1 ≤ n && n ≤ 0xF3 then some ⟨n - 0xF0, 3, 0x80, 0xBF⟩
  else if n == 0xF4 then some ⟨4, 3, 0x80, 0x8F⟩
  else none

/-- One piece of a byte string: a character, or bytes that are none. -/
inductive Piece
  | char (c : Char)
  | malformed
deriving DecidableEq

/-- A character that is still open: the bits so far, how many bytes are missing, and the range that
the next one must lie in. -/
structure Open where
  bits : Nat
  missing : Nat
  low : Nat
  high : Nat

def start (n : Nat) : Option Open × List Piece :=
  if n < 0x80 then (none, [.char (Char.ofNat n)])
  else
    match lead? n with
    | some lead => (some ⟨lead.bits, lead.follow, lead.low, lead.high⟩, [])
    | none => (none, [.malformed])

/-- Reads one byte. A byte that cannot continue the open character ends it as malformed and is read
again on its own. -/
def step (state : Option Open) (byte : UInt8) : Option Open × List Piece :=
  let n := byte.toNat
  match state with
  | none => start n
  | some o =>
    if o.low ≤ n && n ≤ o.high then
      let bits := o.bits * 64 + (n - 0x80)
      if o.missing ≤ 1 then (none, [.char (Char.ofNat bits)])
      else (some ⟨bits, o.missing - 1, 0x80, 0xBF⟩, [])
    else
      let (next, pieces) := start n
      (next, .malformed :: pieces)

def pieces : Option Open → Bytes → List Piece
  | none, [] => []
  | some _, [] => [.malformed]
  | state, byte :: rest =>
    let (next, now) := step state byte
    now ++ pieces next rest

def Piece.char? : Piece → Option Char
  | .char c => some c
  | .malformed => none

def decode? (bytes : Bytes) : Option String :=
  ((pieces none bytes).mapM Piece.char?).map String.ofList

/-- The text of any bytes, malformed pieces written U+FFFD. -/
def decodeLossy (bytes : Bytes) : String :=
  String.ofList ((pieces none bytes).map fun piece => piece.char?.getD '\uFFFD')

def encodeChar (c : Char) : Bytes :=
  let n := c.toNat
  if n < 0x80 then [UInt8.ofNat n]
  else if n < 0x800 then [UInt8.ofNat (0xC0 + n / 64), UInt8.ofNat (0x80 + n % 64)]
  else if n < 0x10000 then
    [UInt8.ofNat (0xE0 + n / 4096), UInt8.ofNat (0x80 + n / 64 % 64), UInt8.ofNat (0x80 + n % 64)]
  else
    [UInt8.ofNat (0xF0 + n / 262144), UInt8.ofNat (0x80 + n / 4096 % 64),
      UInt8.ofNat (0x80 + n / 64 % 64), UInt8.ofNat (0x80 + n % 64)]

def encode (s : String) : Bytes :=
  s.toList.flatMap encodeChar

/-- Why a torn text has no bytes: its first half of a pair, or those that stand there in a row. -/
def unencodable (t : Text.Torn) : String :=
  let place := t.before.length
  let others := t.after.takeWhile fun code => code.char?.isNone
  "'utf-8' codec can't encode " ++
    (if others.isEmpty then "character '\\u" ++ Hex.ofNat 4 t.half.unit ++ "' in position " ++ toString place
      else "characters in position " ++ toString place ++ "-" ++ toString (place + others.length)) ++
    ": surrogates not allowed"

/-- The characters at the start of a text that fit into so many bytes. -/
def fitting (room : Nat) : List Char → List Char
  | [] => []
  | c :: rest =>
    let size := (encodeChar c).length
    if size ≤ room then c :: fitting (room - size) rest else []

/-- A text of at most fifty bytes as it is, a longer one by its first 25 and its last 24 bytes. -/
def clipped (s : String) : String :=
  let cs := s.toList
  if (encode s).length ≤ 50 then s
  else
    String.ofList (fitting 25 cs) ++ "..." ++ String.ofList (fitting 24 cs.reverse).reverse

end Leasehold.Utf8
