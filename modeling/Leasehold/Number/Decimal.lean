import Leasehold.Number.Binary64
import Leasehold.Text.DecimalDigit

/-! Decimal text of binary numbers. A number is written with the fewest digits that read back, with a
given count of digits, or with a given count of places; it is read by exact rounding. -/

namespace Leasehold

structure Decimal where
  coefficient : Nat
  exponent : Int
deriving DecidableEq, Repr

namespace Decimal

def digitCount (n : Nat) : Nat :=
  (Nat.toDigits 10 n).length

def divPow10 (num den : Nat) (exponent : Int) : Nat × Nat :=
  if 0 ≤ exponent then (num, den * Nat.pow 10 exponent.toNat)
  else (num * Nat.pow 10 (-exponent).toNat, den)

/-- The place of the leading digit of a positive quotient: the least power of ten above it. -/
def magnitude (num den : Nat) : Int :=
  if den ≤ num then (digitCount (num / den) : Int)
  else
    let guess : Int := 1 - (digitCount (den / num) : Int)
    let (a, b) := divPow10 num den guess
    if a < b then guess else guess + 1

/-- The same decimal without zeros at the end of its coefficient. -/
def normalize (d : Decimal) : Decimal :=
  if d.coefficient == 0 then ⟨0, 0⟩
  else
    let digits := (Nat.toDigits 10 d.coefficient).reverse
    let zeros := (digits.takeWhile (· == '0')).length
    ⟨d.coefficient / Nat.pow 10 zeros, d.exponent + zeros⟩

/-- The numbers that round to a given one: four times its mantissa and those of the two ends, and
whether the ends belong. The gap below a power of two is half as wide. -/
structure Interval where
  low : Nat
  mid : Nat
  high : Nat
  closed : Bool

def interval (mantissa : Nat) (exponent : Int) : Interval :=
  let mid := 4 * mantissa
  let below := if mantissa == Binary64.leastNormal && -1074 < exponent then 1 else 2
  ⟨mid - below, mid, mid + 2, mantissa % 2 == 0⟩

/-- A quotient, scaled as the interval is, lies in it. -/
def Interval.contains (i : Interval) (num den : Nat) : Bool :=
  if i.closed then i.low * den ≤ num && num ≤ i.high * den
  else i.low * den < num && num < i.high * den

/-- The decimal with `count` digits that reads back as the number, if there is one: the nearer of the
number's two neighbours on that grid, the even one when both are equally near. -/
def candidate? (exponent place : Int) (count : Nat) (i : Interval) : Option Decimal :=
  -- the unit of the grid, over a quarter of the mantissa's unit, is p / q
  let unit := place - count
  let (p, q) := divPow10 1 1 (-unit)
  let (p, q) := if 0 ≤ exponent - 2 then (p, q * Nat.pow 2 (exponent - 2).toNat)
    else (p * Nat.pow 2 (2 - exponent).toNat, q)
  let down := i.mid * q / p
  let up := down + 1
  let downIn := i.contains (down * p) q
  let upIn := i.contains (up * p) q
  if downIn && upIn then
    let toDown := i.mid * q - down * p
    let toUp := up * p - i.mid * q
    some ⟨if toDown < toUp then down else if toUp < toDown then up else down + down % 2, unit⟩
  else if downIn then some ⟨down, unit⟩
  else if upIn then some ⟨up, unit⟩
  else none

/-- The shortest decimal that reads back as a positive finite number, and of those the nearest. -/
def shortest (mantissa : Nat) (exponent : Int) : Decimal :=
  let (num, den) := Binary64.ratio mantissa exponent
  let place := magnitude num den
  let range := interval mantissa exponent
  let found := (List.range 17).findSome? fun n =>
    candidate? exponent place (n + 1) range
  normalize (found.getD ⟨mantissa, 0⟩)

/-- A positive quotient to a count of significant digits, a tie going to the even digit. -/
def significant (count num den : Nat) : Decimal :=
  let unit := magnitude num den - count
  let (a, b) := divPow10 num den unit
  normalize ⟨Binary64.roundQuotient a b, unit⟩

/-- Which decimals are written without an exponent, and whether whole ones show a point. -/
structure Style where
  low : Int
  high : Int
  pointed : Bool

/-- Data is written with a point, and with an exponent below 10^-4 and from 10^16 on. -/
def Style.data : Style := ⟨-4, 16, true⟩

/-- Messages show six digits, without a point for whole numbers. -/
def Style.message : Style := ⟨-4, 6, false⟩

def exponentText (e : Int) : String :=
  let digits := toString e.natAbs
  (if e < 0 then "-" else "+") ++ (if digits.length < 2 then "0" ++ digits else digits)

def render (style : Style) (d : Decimal) : String :=
  let digits := Nat.toDigits 10 d.coefficient
  let place : Int := d.exponent + digits.length
  let scientific := place - 1
  if d.coefficient == 0 then if style.pointed then "0.0" else "0"
  else if style.low ≤ scientific && scientific < style.high then
    if 0 ≤ d.exponent then
      String.ofList (digits ++ List.replicate d.exponent.toNat '0') ++
        (if style.pointed then ".0" else "")
    else if 0 < place then
      String.ofList (digits.take place.toNat ++ '.' :: digits.drop place.toNat)
    else
      "0." ++ String.ofList (List.replicate (-place).toNat '0' ++ digits)
  else
    match digits with
    | [] => ""
    | [lead] => String.ofList [lead] ++ "e" ++ exponentText scientific
    | lead :: rest => String.ofList (lead :: '.' :: rest) ++ "e" ++ exponentText scientific

end Decimal

namespace Binary64

/-- A number written in a style, a finite one by a given choice of digits. -/
def render (style : Decimal.Style) (digits : Nat → Int → Decimal) : Binary64 → String
  | .finite negative mantissa exponent =>
    (if negative then "-" else "") ++
      Decimal.render style (if mantissa == 0 then ⟨0, 0⟩ else digits mantissa exponent)
  | .infinite negative => if negative then "-inf" else "inf"
  | .nan => "nan"

def text (x : Binary64) : String :=
  x.render .data Decimal.shortest

/-- The text with at most six significant digits. -/
def brief (x : Binary64) : String :=
  x.render .message fun mantissa exponent =>
    let (num, den) := ratio mantissa exponent
    Decimal.significant 6 num den

/-- The text with a count of places, a tie going to the even digit. -/
def fixed (places : Nat) : Binary64 → String
  | .finite negative mantissa exponent =>
    let (num, den) := ratio mantissa exponent
    let units := roundQuotient (num * Nat.pow 10 places) den
    let digits := Nat.toDigits 10 units
    let digits := List.replicate (places + 1 - digits.length) '0' ++ digits
    let whole := digits.take (digits.length - places)
    let fraction := digits.drop (digits.length - places)
    (if negative then "-" else "") ++ String.ofList whole ++
      (if places == 0 then "" else "." ++ String.ofList fraction)
  | .infinite negative => if negative then "-inf" else "inf"
  | .nan => "nan"

/-- The number nearest to a decimal. Coefficients far out of range are settled without computing the
power of ten. -/
def ofDecimal (negative : Bool) (d : Decimal) : Binary64 :=
  let place : Int := d.exponent + Decimal.digitCount d.coefficient
  if d.coefficient == 0 then .finite negative 0 (-1074)
  else if 400 < place then .infinite negative
  else if place < -400 then .finite negative 0 (-1074)
  else
    let (num, den) := Decimal.divPow10 d.coefficient 1 (-d.exponent)
    ofRatio negative num den

/-- A run of ASCII digits, its value and length, and what follows. -/
def takeDigits (cs : List Char) : List Char × List Char :=
  (cs.takeWhile Text.isAsciiDigit, cs.dropWhile Text.isAsciiDigit)

def digitsValue (digits : List Char) : Nat :=
  digits.foldl (fun n c => 10 * n + (c.toNat - 48)) 0

/-- A sign, if one is there: is it negative, and what follows. -/
def takeSign : List Char → Bool × List Char
  | '-' :: rest => (true, rest)
  | '+' :: rest => (false, rest)
  | rest => (false, rest)

def exponent? : List Char → Option Int
  | [] => some 0
  | c :: rest =>
    if c == 'e' || c == 'E' then
      let (negative, rest) := takeSign rest
      let (digits, rest) := takeDigits rest
      if digits.isEmpty || !rest.isEmpty then none
      else some (if negative then -(digitsValue digits : Int) else digitsValue digits)
    else none

def ofUnsigned? (negative : Bool) (cs : List Char) : Option Binary64 :=
  let lower := String.ofList (cs.map Char.toLower)
  if lower == "inf" || lower == "infinity" then some (.infinite negative)
  else if lower == "nan" then some .nan
  else
    let (whole, rest) := takeDigits cs
    let (fraction, rest) := match rest with
      | '.' :: rest => takeDigits rest
      | rest => ([], rest)
    if whole.isEmpty && fraction.isEmpty then none
    else (exponent? rest).map fun e =>
      ofDecimal negative ⟨digitsValue (whole ++ fraction), e - fraction.length⟩

/-- Takes out underscores, each of which must stand between two digits. -/
def dropUnderscores? (previous : Char) : List Char → Option (List Char)
  | [] => some []
  | '_' :: c :: rest =>
    if Text.isAsciiDigit previous && Text.isAsciiDigit c then dropUnderscores? '_' (c :: rest)
    else none
  | c :: rest => if c == '_' then none else (dropUnderscores? c rest).map (c :: ·)

/-- Reads a number: blanks around it, a sign, digits of any script with single underscores between
them, a point, an exponent, or the names of infinity and NaN. -/
def parse? (s : String) : Option Binary64 := do
  let cs := (Text.trimChars Text.isWhiteSpace s.toList).map Text.asciiDigit
  let plain ← dropUnderscores? ' ' cs
  let (negative, rest) := takeSign plain
  ofUnsigned? negative rest

end Binary64

end Leasehold
