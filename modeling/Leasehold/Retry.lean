import Leasehold.Value

/-! Repeating an operation that fails for a passing reason. The waits between attempts double from the
least to the greatest one. -/

namespace Leasehold.Retry

/-- A length of time, counted in the least part of a second that a binary number can hold, so that
binary seconds are whole and stay exact when they are doubled. -/
abbrev Span := Nat

namespace Span

def second : Nat := Nat.pow 2 1074

/-- A length of so many seconds; what is not positive is none. -/
def ofSeconds : Binary64 → Span
  | .finite false mantissa exponent => mantissa * Nat.pow 2 (exponent + 1074).toNat
  | .infinite false => Nat.pow 2 2098
  | _ => 0

def ofMilliseconds (n : Number) : Span :=
  ofSeconds (n.quotient 1000)

/-- The length in whole microseconds, by way of the nearest binary number of them. -/
def microseconds (t : Span) : Int :=
  (((Binary64.ofRatio false t second).mul (.ofInt 1000000)).round?).getD 0

end Span

/-- How often and how patiently an operation is repeated. -/
structure Policy where
  maxAttempts : Int
  minWait : Span
  maxWait : Span
deriving DecidableEq, Repr

/-- Three attempts, a tenth of a second apart at first and two seconds at most. -/
def Policy.standard : Policy :=
  ⟨3, .ofMilliseconds (.int 100), .ofMilliseconds (.int 2000)⟩

/-- The wait after the attempt with a given number, counted from one. -/
def Policy.wait (p : Policy) (attempt : Nat) : Span :=
  max p.minWait (min (p.minWait * Nat.pow 2 (attempt - 1)) p.maxWait)

/-- What a repeated operation did: how often it ran, how long it waited in between, and its last
outcome. -/
structure Report (ε α : Type) where
  attempts : Nat
  waits : List Span
  result : Except ε α

/-- Runs an operation from its `attempt`-th attempt on, with `remaining` more attempts allowed after that
one. -/
def runFrom {ε α : Type} (p : Policy) (retryable : ε → Bool) (outcome : Nat → Except ε α) :
    Nat → Nat → Report ε α
  | 0, attempt => ⟨attempt, [], outcome attempt⟩
  | remaining + 1, attempt =>
    match outcome attempt with
    | .ok a => ⟨attempt, [], .ok a⟩
    | .error e =>
      if retryable e then
        let report := runFrom p retryable outcome remaining (attempt + 1)
        { report with waits := p.wait attempt :: report.waits }
      else ⟨attempt, [], .error e⟩

/-- Runs an operation until it succeeds, fails for good, or has used up its attempts. The outcome is
given by the number of the attempt, counted from one; there is always a first attempt. -/
def run {ε α : Type} (p : Policy) (retryable : ε → Bool) (outcome : Nat → Except ε α) : Report ε α :=
  runFrom p retryable outcome (p.maxAttempts - 1).toNat 1

end Leasehold.Retry
