import Leasehold.Text.Blank
import Leasehold.Text.DecimalDigit
import Leasehold.Text.Hex
import Leasehold.Text.Split

/-! Internet addresses as text. An address is read in any of its spellings and written in one: four
decimal octets, or hexadecimal groups with the first longest run of zero groups left out. -/

namespace Leasehold

/-- An address of either family; one of the newer family may be bound to a scope. -/
inductive Address
  | v4 (octets : List Nat)
  | v6 (groups : List Nat) (zone : Option String)
deriving DecidableEq, Repr

namespace Address

/-- An octet: one to three ASCII digits without a leading zero, at most 255. -/
def octet? (cs : List Char) : Option Nat :=
  if cs.isEmpty || 3 < cs.length || !cs.all Text.isAsciiDigit then none
  else if cs.head? == some '0' && 1 < cs.length then none
  else
    let n := cs.foldl (fun n c => 10 * n + (c.toNat - 48)) 0
    if n ≤ 255 then some n else none

def octets? (cs : List Char) : Option (List Nat) :=
  let parts := Text.splitAt '.' cs
  if parts.length == 4 then parts.mapM octet? else none

def group? (cs : List Char) : Option Nat :=
  if cs.isEmpty || 4 < cs.length then none
  else cs.foldl (fun n c => do return 16 * (← n) + (← Hex.value? c)) (some 0)

/-- The groups of the parts between colons, a last part in decimal octets counting as two. Groups are
kept as text because an empty one stands for left out zeros. -/
def groupTexts? (cs : List Char) : Option (List (List Char)) :=
  let parts := Text.splitAt ':' cs
  match parts.getLast? with
  | none => none
  | some last =>
    if parts.length < 3 then none
    else if last.contains '.' then
      match octets? last with
      | some [a, b, c, d] =>
        some (parts.dropLast ++ [Nat.toDigits 16 (256 * a + b), Nat.toDigits 16 (256 * c + d)])
      | _ => none
    else some parts

/-- The places of empty groups, the two ends not counted. -/
def gaps (parts : List (List Char)) : List Nat :=
  (List.range parts.length).filter fun i =>
    0 < i && i + 1 < parts.length && (parts.getD i []).isEmpty

/-- Groups on one side of the gap. An empty one at the outer end belongs to the gap and must then be
the only one. -/
def side? (outerEmpty : Bool) (parts : List (List Char)) : Option (List Nat) :=
  if outerEmpty then if parts.length == 1 then some [] else none
  else parts.mapM group?

/-- Eight groups. At most one gap may stand for left out zeros, at least one of them. -/
def groups? (cs : List Char) : Option (List Nat) := do
  let parts ← groupTexts? cs
  if 9 < parts.length then none
  else
    match gaps parts with
    | [] => if parts.length == 8 then parts.mapM group? else none
    | [gap] =>
      let before := parts.take gap
      let after := parts.drop (gap + 1)
      let high ← side? (before.head? == some []) before
      let low ← side? (after.getLast? == some []) after
      let given := high.length + low.length
      if given < 8 then some (high ++ List.replicate (8 - given) 0 ++ low) else none
    | _ => none

/-- An address of the newer family with its zone, which follows a percent sign and is not empty. -/
def v6? (cs : List Char) : Option Address :=
  match Text.splitAt '%' cs with
  | [address] => (groups? address).map fun groups => .v6 groups none
  | [address, zone] =>
    if zone.isEmpty then none
    else (groups? address).map fun groups => .v6 groups (some (String.ofList zone))
  | _ => none

/-- Reads an address. A slash, which would start a network's length, is refused. -/
def parse? (s : String) : Option Address :=
  let cs := s.toList
  if cs.contains '/' then none
  else
    match octets? cs with
    | some octets => some (.v4 octets)
    | none => v6? cs

/-- How many zero groups a list starts with. -/
def zeroRun (groups : List Nat) : Nat :=
  (groups.takeWhile (· == 0)).length

/-- The start and length of the first longest run of zero groups. -/
def longestZeroRun : Nat → List Nat → Nat × Nat
  | _, [] => (0, 0)
  | place, g :: rest =>
    let here := zeroRun (g :: rest)
    let later := longestZeroRun (place + 1) rest
    if later.2 ≤ here then (place, here) else later

def groupText (n : Nat) : String :=
  String.ofList (Nat.toDigits 16 n)

/-- Groups between colons; a run of two or more zero groups is left out. -/
def groupsText (groups : List Nat) : String :=
  let (start, length) := longestZeroRun 0 groups
  if length ≤ 1 then Text.join ":" (groups.map groupText)
  else
    Text.join ":" ((groups.take start).map groupText) ++ "::" ++
      Text.join ":" ((groups.drop (start + length)).map groupText)

def text : Address → String
  | .v4 octets => Text.join "." (octets.map toString)
  | .v6 groups zone =>
    groupsText groups ++
      match zone with
      | some z => "%" ++ z
      | none => ""

end Address

end Leasehold
