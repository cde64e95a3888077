/-! Lines of a text. Program output is cut at every line boundary that Unicode knows; a file is cut at
the three line ends that files use. -/

namespace Leasehold.Text

/-- Characters that end a line of program output. -/
def isLineBoundary (c : Char) : Bool :=
  let n := c.toNat
  (10 ≤ n && n ≤ 13) || (0x1C ≤ n && n ≤ 0x1E) || n == 0x85 || n == 0x2028 || n == 0x2029

/-- Cuts at each character of a class, a carriage return and its line feed counting as one end.
`current` holds the characters of the open line, last first. -/
def cutLines (ends : Char → Bool) : List Char → List Char → List (List Char)
  | current, [] => if current.isEmpty then [] else [current.reverse]
  | current, '\r' :: '\n' :: rest => current.reverse :: cutLines ends [] rest
  | current, c :: rest =>
    if ends c then current.reverse :: cutLines ends [] rest
    else cutLines ends (c :: current) rest

def outputLines (s : String) : List String :=
  (cutLines isLineBoundary [] s.toList).map String.ofList

def fileLines (s : String) : List String :=
  (cutLines (fun c => c == '\n' || c == '\r') [] s.toList).map String.ofList

/-- The content of a file with every line end written as a line feed. -/
def normalizeLineEnds : List Char → List Char
  | [] => []
  | '\r' :: '\n' :: rest => '\n' :: normalizeLineEnds rest
  | c :: rest => (if c == '\r' then '\n' else c) :: normalizeLineEnds rest

/-- A text without the line feed at its end, if there is one. -/
def dropLineFeed (cs : List Char) : List Char :=
  if cs.getLast? == some '\n' then cs.dropLast else cs

end Leasehold.Text
