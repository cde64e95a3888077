/-! Binary floating point numbers of 64 bits, held exactly: a finite number is a sign, a whole
mantissa and a power of two. Rounding goes to the nearest such number, a tie to the even mantissa. -/

namespace Leasehold

/-- A number of 64 bits. A finite one has a mantissa below 2^53 and an exponent from -1074 to 971, and
its mantissa is at least 2^52 unless the exponent is the least one, so that equal numbers of one
sign are written the same way. -/
inductive Binary64
  | finite (negative : Bool) (mantissa : Nat) (exponent : Int)
  | infinite (negative : Bool)
  | nan
deriving DecidableEq, Repr

namespace Binary64

instance : Inhabited Binary64 := ⟨.finite false 0 (-1074)⟩

/-- The least mantissa of a number whose exponent is not the least one: 2^52. -/
def leastNormal : Nat := 4503599627370496

/-- The whole number nearest to a quotient, a tie going to the even one. -/
def roundQuotient (num den : Nat) : Nat :=
  let whole := num / den
  let rest := 2 * (num % den)
  if rest < den then whole
  else if den < rest then whole + 1
  else whole + whole % 2

def divPow (num den : Nat) (exponent : Int) : Nat × Nat :=
  if 0 ≤ exponent then (num, den * Nat.pow 2 exponent.toNat)
  else (num * Nat.pow 2 (-exponent).toNat, den)

/-- The exponent of the greatest power of two that is not above a positive quotient. -/
def floorLog2 (num den : Nat) : Int :=
  let guess : Int := (num.log2 : Int) - (den.log2 : Int)
  let (a, b) := divPow num den guess
  if b ≤ a then guess else guess - 1

def ofRatio (negative : Bool) (num den : Nat) : Binary64 :=
  if num == 0 then .finite negative 0 (-1074)
  else
    let exponent := max (floorLog2 num den - 52) (-1074)
    let (a, b) := divPow num den exponent
    let mantissa := roundQuotient a b
    let (mantissa, exponent) :=
      if mantissa == 2 * leastNormal then (leastNormal, exponent + 1) else (mantissa, exponent)
    if 971 < exponent then .infinite negative else .finite negative mantissa exponent

/-- The number nearest to a whole number; infinite when that is out of range. -/
def ofInt (i : Int) : Binary64 :=
  ofRatio (i < 0) i.natAbs 1

def ratio (mantissa : Nat) (exponent : Int) : Nat × Nat :=
  if 0 ≤ exponent then (mantissa * Nat.pow 2 exponent.toNat, 1)
  else (mantissa, Nat.pow 2 (-exponent).toNat)

def isZero : Binary64 → Bool
  | .finite _ mantissa _ => mantissa == 0
  | _ => false

def isFinite : Binary64 → Bool
  | .finite .. => true
  | _ => false

def isNegative : Binary64 → Bool
  | .finite negative mantissa _ => negative && mantissa != 0
  | .infinite negative => negative
  | .nan => false

def truncate? : Binary64 → Option Int
  | .finite negative mantissa exponent =>
    let (num, den) := ratio mantissa exponent
    let whole : Int := (num / den : Nat)
    some (if negative then -whole else whole)
  | _ => none

def isWhole : Binary64 → Bool
  | .finite _ mantissa exponent =>
    let (num, den) := ratio mantissa exponent
    num % den == 0
  | _ => false

/-- The whole number that a finite number equals, if there is one. -/
def toInt? (x : Binary64) : Option Int :=
  if x.isWhole then x.truncate? else none

/-- A NaN is not positive. -/
def isPositive : Binary64 → Bool
  | .finite negative mantissa _ => !negative && mantissa != 0
  | .infinite negative => !negative
  | .nan => false

/-- The number nearest to a quotient by a positive whole number. -/
def divNat (x : Binary64) (n : Nat) : Binary64 :=
  match x with
  | .finite negative mantissa exponent =>
    let (num, den) := ratio mantissa exponent
    ofRatio negative num (den * n)
  | x => x

/-- Zero has a sign too. -/
def hasMinus : Binary64 → Bool
  | .finite negative _ _ => negative
  | .infinite negative => negative
  | .nan => false

/-- The magnitude of a number: a quotient, or none if it is infinite. -/
def magnitude? : Binary64 → Option (Nat × Nat)
  | .finite _ mantissa exponent => some (ratio mantissa exponent)
  | _ => none

def mul (x y : Binary64) : Binary64 :=
  let negative := x.hasMinus != y.hasMinus
  match x, y with
  | .nan, _ => .nan
  | _, .nan => .nan
  | x, y =>
    match x.magnitude?, y.magnitude? with
    | some (a, b), some (c, d) => ofRatio negative (a * c) (b * d)
    | _, _ => if x.isZero || y.isZero then .nan else .infinite negative

def signedRatio? : Binary64 → Option (Int × Nat)
  | .finite negative mantissa exponent =>
    let (num, den) := ratio mantissa exponent
    some (if negative then -(num : Int) else num, den)
  | _ => none

def ofSignedRatio (num : Int) (den : Nat) : Binary64 :=
  ofRatio (num < 0) num.natAbs den

/-- The sum of two numbers. Opposite infinities have none. -/
def add (x y : Binary64) : Binary64 :=
  match x, y with
  | .nan, _ => .nan
  | _, .nan => .nan
  | .infinite a, .infinite b => if a == b then .infinite a else .nan
  | .infinite a, _ => .infinite a
  | _, .infinite b => .infinite b
  | x, y =>
    match x.signedRatio?, y.signedRatio? with
    | some (a, b), some (c, d) =>
      if x.isZero && y.isZero then .finite (x.hasMinus && y.hasMinus) 0 (-1074)
      else ofSignedRatio (a * d + c * b) (b * d)
    | _, _ => .nan

/-- The whole number nearest to a finite number, a tie going to the even one. -/
def round? : Binary64 → Option Int
  | .finite negative mantissa exponent =>
    let (num, den) := ratio mantissa exponent
    let whole : Int := (roundQuotient num den : Nat)
    some (if negative then -whole else whole)
  | _ => none

def neg : Binary64 → Binary64
  | .finite negative mantissa exponent => .finite (!negative) mantissa exponent
  | .infinite negative => .infinite (!negative)
  | .nan => .nan

end Binary64

end Leasehold
