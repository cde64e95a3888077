import Leasehold.Address
import Leasehold.Text.Utf8

/-! Addresses of resources with an authority: a scheme, two slashes, an optional user, a host, an
optional port, a path, a query and a fragment. They have one written form: what may not stand in a part
is percent-encoded, dot segments of the path are resolved, and a port has no leading zeros. -/

namespace Leasehold.Url

inductive Fault
  | emptyHost
  | ipv6
  | hostCharacter
  | port
deriving DecidableEq, Repr

def Fault.message : Fault → String
  | .emptyHost => "empty host"
  | .ipv6 => "invalid IPv6 address"
  | .hostCharacter => "invalid domain character"
  | .port => "invalid port number"

/-- Tabs and line ends, which do not count. -/
def isIgnored (c : Char) : Bool :=
  c == '\t' || c == '\n' || c == '\r'

def endsAuthority (c : Char) : Bool :=
  c == '/' || c == '?' || c == '#'

def encodeByte (b : UInt8) : List Char :=
  '%' :: (Hex.encodeByte b).map Char.toUpper

/-- A character of a part, encoded if it is reserved there, a control character or not ASCII. -/
def encodeChar (isReserved : Char → Bool) (c : Char) : List Char :=
  if c.toNat < 0x20 || 0x7F ≤ c.toNat || isReserved c then (Utf8.encodeChar c).flatMap encodeByte
  else [c]

def encode (isReserved : Char → Bool) (cs : List Char) : List Char :=
  cs.flatMap (encodeChar isReserved)

def fragmentReserved : List Char := [' ', '"', '<', '>', '\x60']

def queryReserved : List Char := [' ', '"', '#', '<', '>']

def pathReserved : List Char := fragmentReserved ++ ['#', '?', '\x7b', '\x7d']

def userReserved : List Char :=
  pathReserved ++ ['/', ':', ';', '=', '@', '[', '\\', ']', '^', '|']

def hostForbidden : List Char :=
  ['\x00', '\t', '\n', '\r', ' ', '#', '/', ':', '<', '>', '?', '@', '[', '\\', ']', '^', '|']

/-- A list cut at the last place of an item, which belongs to neither part. -/
def cutLast? (mark : Char) (cs : List Char) : Option (List Char × List Char) :=
  let after := cs.reverse.takeWhile (· != mark)
  if after.length < cs.length then
    some (cs.take (cs.length - after.length - 1), after.reverse)
  else none

/-- A user: its name, and its password after the first colon, where these are not empty. -/
def user (cs : List Char) : List Char :=
  let name := encode userReserved.contains (cs.takeWhile (· != ':'))
  let password := encode userReserved.contains ((cs.dropWhile (· != ':')).drop 1)
  let shown := name ++ if password.isEmpty then [] else ':' :: password
  if shown.isEmpty then [] else shown ++ ['@']

/-- The host and what follows it. A colon between square brackets does not end the host. -/
def splitHost : Bool → List Char → List Char × List Char
  | _, [] => ([], [])
  | inBrackets, c :: rest =>
    if endsAuthority c || (c == ':' && !inBrackets) then ([], c :: rest)
    else
      let inBrackets := if c == '[' then true else if c == ']' then false else inBrackets
      let (host, rest) := splitHost inBrackets rest
      (c :: host, rest)

/-- The written form of a host: an address of the newer family in brackets, or a name. -/
def host (cs : List Char) : Except Fault (List Char) :=
  match cs with
  | '[' :: inner =>
    match inner.getLast?, Address.groups? inner.dropLast with
    | some ']', some groups => .ok ('[' :: (Address.groupsText groups).toList ++ [']'])
    | _, _ => .error .ipv6
  | cs =>
    if cs.any hostForbidden.contains then .error .hostCharacter
    else .ok (encode (fun _ => false) cs)

def portLimit : Nat := 65535

/-- The port after the colon and what follows it. No digits are no port. -/
def port (cs : List Char) : Except Fault (List Char × List Char) :=
  let digits := cs.takeWhile Text.isAsciiDigit
  let rest := cs.dropWhile Text.isAsciiDigit
  let n := digits.foldl (fun n c => 10 * n + (c.toNat - 48)) 0
  let ends := match rest.head? with
    | some c => endsAuthority c || c == '\\'
    | none => true
  if portLimit < n || !ends then .error .port
  else .ok (if digits.isEmpty then [] else ':' :: Nat.toDigits 10 n, rest)

/-- A dot may be spelled by its code. -/
def dots : List Char → List Char
  | '%' :: '2' :: c :: rest => if c == 'e' || c == 'E' then '.' :: dots rest else '%' :: '2' :: c :: dots rest
  | c :: rest => c :: dots rest
  | [] => []

/-- The path of its segments: a single dot stands for nothing, two dots for the segment before. A path
that ends in dots ends in a slash. -/
def resolve (done : List (List Char)) : List (List Char) → List (List Char)
  | [] => done
  | segment :: rest =>
    let last := if rest.isEmpty then [[]] else []
    if dots segment == ['.'] then resolve (done ++ last) rest
    else if dots segment == ['.', '.'] then resolve (done.dropLast ++ last) rest
    else resolve (done ++ [segment]) rest

/-- The written form of a path. One that begins without a slash gets one. -/
def path (cs : List Char) : List Char :=
  let segments := Text.splitAt '/' (if cs.head? == some '/' then cs.drop 1 else cs)
  (resolve [] (segments.map (encode pathReserved.contains))).flatMap ('/' :: ·)

def tail (cs : List Char) : List Char :=
  let query := cs.takeWhile (· != '#')
  let fragment := (cs.dropWhile (· != '#')).drop 1
  encode queryReserved.contains query ++
    if cs.contains '#' then '#' :: encode fragmentReserved.contains fragment else []

def place (cs : List Char) : List Char :=
  let inPath (c : Char) : Bool := c != '?' && c != '#'
  let found := cs.takeWhile inPath
  (if found.isEmpty then [] else path found) ++ tail (cs.dropWhile inPath)

/-- The written form of an authority and of what follows it. -/
def authority (cs : List Char) : Except Fault (List Char) := do
  let named := cs.takeWhile fun c => !endsAuthority c
  let (owner, rest) := match cutLast? '@' named with
    | some (owner, last) => (owner, last ++ cs.drop named.length)
    | none => ([], cs)
  if named.contains '@' && owner.isEmpty && rest.head?.any endsAuthority then throw .emptyHost
  let owner := user owner
  let (name, rest) := splitHost false rest
  let name ← host name
  let (port, rest) ← match rest with
    | ':' :: rest => if name.isEmpty then throw .emptyHost else port rest
    | rest => pure ([], rest)
  if name.isEmpty && !owner.isEmpty then throw .emptyHost
  return owner ++ name ++ port ++ place rest

/-- The written form of the address that follows a scheme and its slashes. -/
def written (scheme rest : String) : Except Fault String := do
  return scheme ++ String.ofList (← authority (rest.toList.filter fun c => !isIgnored c))

end Leasehold.Url
