/-! Hexadecimal text of byte strings: two lower-case digits a byte, read back in either case. -/

namespace Leasehold

abbrev Bytes := List UInt8

namespace Hex

def digit (n : Nat) : Char :=
  if n < 10 then Char.ofNat (48 + n) else Char.ofNat (87 + n)

/-- The value of an ASCII hexadecimal digit of either case. -/
def value? (c : Char) : Option Nat :=
  let n := c.toNat
  if 48 ≤ n && n ≤ 57 then some (n - 48)
  else if 97 ≤ n && n ≤ 102 then some (n - 87)
  else if 65 ≤ n && n ≤ 70 then some (n - 55)
  else none

theorem value?_digitChar : ∀ n < 16, value? n.digitChar = some n := by
  decide

theorem value?_lt {c : Char} {n : Nat} (digit : value? c = some n) : n < 16 := by
  simp only [value?, Bool.and_eq_true, decide_eq_true_eq] at digit
  split at digit
  next => cases digit; omega
  next =>
    split at digit
    next => cases digit; omega
    next =>
      split at digit
      next => cases digit; omega
      next => cases digit

def encodeByte (b : UInt8) : List Char :=
  [digit (b.toNat / 16), digit (b.toNat % 16)]

def encode (bytes : Bytes) : String :=
  String.ofList (bytes.flatMap encodeByte)

/-- Reads pairs of digits; blanks of a class may stand between pairs but not inside one. -/
def decodeChars (skip : Char → Bool) : List Char → Option Bytes
  | [] => some []
  | [c] => if skip c then some [] else none
  | c :: d :: rest =>
    if skip c then decodeChars skip (d :: rest)
    else
      match value? c, value? d with
      | some high, some low => (decodeChars skip rest).map (UInt8.ofNat (16 * high + low) :: ·)
      | _, _ => none

def ofNat (width n : Nat) : String :=
  let digits := Nat.toDigits 16 n
  String.ofList (List.replicate (width - digits.length) '0' ++ digits)

end Hex

end Leasehold
