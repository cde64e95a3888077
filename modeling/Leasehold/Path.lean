import Leasehold.Text.Blank
import Leasehold.Text.Quoted
import Leasehold.Text.Split

/-! Paths of files: a root, if any, and the names that lead to the file. Repeated slashes and single
points say nothing and are dropped; double points stay. -/

namespace Leasehold

/-- A path, relative if its root is empty. -/
structure Path where
  root : String
  names : List String
deriving DecidableEq, Repr

namespace Path

def leadingSlashes (cs : List Char) : Nat :=
  (cs.takeWhile (· == '/')).length

/-- Reads a path. Exactly two leading slashes are a root of their own. -/
def ofText (s : String) : Path :=
  let cs := s.toList
  let root := match leadingSlashes cs with
    | 0 => ""
    | 2 => "//"
    | _ => "/"
  let names := (Text.splitAt '/' cs).map String.ofList
  ⟨root, names.filter fun name => name != "" && name != "."⟩

def text (p : Path) : String :=
  if p.root == "" && p.names.isEmpty then "." else p.root ++ Text.join "/" p.names

/-- The path with its last name replaced; none if it has no names. -/
def withName? (p : Path) (name : String) : Option Path :=
  if p.names.isEmpty then none else some { p with names := p.names.dropLast ++ [name] }

end Path

end Leasehold
