import Leasehold.Number.Whole

/-! Whole numbers as callers spell them in a request. The plain spelling has no sign but a minus, and no
zero before other digits. Besides it, blanks may stand around, a plus in front, zeros may lead, single
underscores may stand behind digits, and a fraction of zeros may follow. -/

namespace Leasehold.WholeText

/-- Why a text is no number. Only a number in plain spelling is found to be too long. -/
inductive Fault
  | unreadable
  | tooLong
deriving DecidableEq, Repr

/-- Reads the plain spelling. The sign counts for the length. -/
def plain (cs : List Char) : Except Fault Int :=
  let (negative, body) := match cs with
    | '-' :: rest => (true, rest)
    | rest => (false, rest)
  let digits := body.takeWhile Text.isAsciiDigit
  let signLength := if negative then 1 else 0
  match digits with
  | [] => .error .unreadable
  | '0' :: _ => if body == ['0'] then .ok 0 else .error .unreadable
  | digits =>
    if Whole.digitLimit < digits.length + signLength then .error .tooLong
    else if digits.length != body.length then .error .unreadable
    else
      let n : Int := (digits.foldl (fun n c => 10 * n + (c.toNat - 48)) 0 : Nat)
      .ok (if negative then -n else n)

/-- Drops zeros and underscores after a first zero. The last of them before a point or at the end stays. -/
def dropZeros? (previous : Char) : List Char → Option (List Char)
  | [] => some [previous]
  | c :: rest =>
    if c == '0' || c == '_' then dropZeros? c rest
    else if Text.isAsciiDigit c || c == '-' then some (c :: rest)
    else if c == '.' then some (previous :: c :: rest)
    else none

/-- Drops leading zeros, also behind a minus sign. A text that starts with no digit has none to drop, and only
a minus sign may stand in front. -/
def dropLeadingZeros? : List Char → Option (List Char)
  | [] => none
  | '-' :: '0' :: rest => (dropZeros? '0' rest).map ('-' :: ·)
  | c :: rest =>
    if c == '0' then dropZeros? c rest
    else if Text.isAsciiDigit c || c == '-' then some (c :: rest)
    else none

/-- Drops a fraction that holds zeros only, at least one. -/
def dropZeroFraction? (cs : List Char) : Option (List Char) :=
  match cs.dropWhile (· != '.') with
  | [] => some cs
  | _ :: fraction =>
    if !fraction.isEmpty && fraction.all (· == '0') then some (cs.takeWhile (· != '.')) else none

/-- Drops underscores, each of which must stand behind a digit and before something. -/
def dropUnderscores? (previous : Char) : List Char → Option (List Char)
  | [] => if previous == '_' then none else some []
  | c :: rest =>
    if c == '_' then if Text.isAsciiDigit previous then dropUnderscores? c rest else none
    else (dropUnderscores? c rest).map (c :: ·)

/-- Drops a plus sign, unless a minus follows it. -/
def dropPlus? : List Char → Option (List Char)
  | '+' :: '-' :: _ => none
  | '+' :: rest => some rest
  | rest => some rest

def tidy? (cs : List Char) : Option (List Char) := do
  dropUnderscores? ' ' (← dropZeroFraction? (← dropLeadingZeros? (← dropPlus? cs)))

def parse (s : String) : Except Fault Int :=
  match plain s.toList with
  | .error .unreadable =>
    match (tidy? (Text.trimChars Text.isWhiteSpace s.toList)).map plain with
    | some (.ok i) => .ok i
    | _ => .error .unreadable
  | result => result

end Leasehold.WholeText
