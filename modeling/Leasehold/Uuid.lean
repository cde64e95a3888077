import Leasehold.Number.Whole
import Leasehold.Literal
import Leasehold.Text.Utf8

/-! Uuids in the forms that callers use: sixteen bytes, a list of sixteen numbers, or hexadecimal text
with or without its hyphens, braces and marks. -/

namespace Leasehold.Uuid

inductive Fault
  | numbers
  | text (literal : String)
  | kind (typeName : String)
  | length (n : Nat)
deriving DecidableEq, Repr

def Fault.message : Fault → String
  | .numbers => "uuid byte list must hold values 0-255"
  | .text literal => "invalid uuid string: " ++ literal
  | .kind typeName => "unsupported uuid type: " ++ typeName
  | .length n => "uuid must be exactly 16 bytes, got " ++ toString n

def bigEndian : Nat → Nat → Bytes
  | 0, _ => []
  | width + 1, n => UInt8.ofNat (n / Nat.pow 256 width) :: bigEndian width (n % Nat.pow 256 width)

/-- Takes out every occurrence of a mark, from left to right. -/
def dropMark (mark : List Char) : Nat → List Char → List Char
  | 0, cs => cs
  | _, [] => []
  | fuel + 1, c :: rest =>
    if mark.isPrefixOf (c :: rest) then dropMark mark fuel ((c :: rest).drop mark.length)
    else c :: dropMark mark fuel rest

def without (mark : String) (cs : List Char) : List Char :=
  dropMark mark.toList (cs.length + 1) cs

/-- Reads uuid text: marks, outer braces and hyphens are dropped, and what is left must be 32 characters
that read as a hexadecimal number. -/
def ofText? (s : String) : Option Bytes :=
  let marked := without "uuid:" (without "urn:" s.toList)
  let digits := (Text.trimChars (fun c => c == '\x7b' || c == '\x7d') marked).filter (· != '-')
  if digits.length == 32 then
    match Whole.parseIn 16 (String.ofList digits) with
    | .ok (.ofNat n) => some (bigEndian 16 n)
    | _ => none
  else none

def byte? : Value → Option UInt8
  | .scalar s =>
    match s with
    | .bool b => some (if b then 1 else 0)
    | .int i => if 0 ≤ i && i < 256 then some (UInt8.ofNat i.toNat) else none
    | _ => none
  | _ => none

def bytesOfList? (items : List Value) : Option Bytes :=
  items.mapM byte?

/-- The bytes that a value stands for, of whatever length. -/
def bytesOfValue : Value → Except Fault Bytes
  | .scalar (.bytes bs) => .ok bs
  | .scalar (.str s) =>
    match ofText? s with
    | some bs => .ok bs
    | none => .error (.text (Quoted.text s))
  | .scalar (.torn t) => .error (.text (Quoted.torn t))
  | .list items =>
    match bytesOfList? items with
    | some bs => .ok bs
    | none => .error .numbers
  | v => .error (.kind v.typeName)

def parse (v : Value) : Except Fault Bytes := do
  let raw ← bytesOfValue v
  if raw.length == 16 then return raw else throw (.length raw.length)

/-- Decodes a uuid argument of a tool. Nothing and the empty text name no uuid, text is hexadecimal or
uuid text, and a list is its bytes. What cannot be decoded is left for the receiver to reject. -/
def ofArgument (v : Value) : Value :=
  match v with
  | .scalar (.str s) =>
    if s == "" then .null
    else
      match Hex.decodeChars Text.isAsciiBlank s.toList, ofText? s with
      | some bs, _ => .scalar (.bytes bs)
      | none, some bs => .scalar (.bytes bs)
      | none, none => .scalar (.bytes (Utf8.encode s))
  | .list items =>
    match bytesOfList? items with
    | some bs => .scalar (.bytes bs)
    | none => v
  | v => v

end Leasehold.Uuid
