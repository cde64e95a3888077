import Leasehold.Path

/-! Where the configuration is found: a file that the caller names, else one that the environment
names, else the first of the usual places that is there. -/

namespace Leasehold.Inventory

/-- The usual places, in the order in which they are tried. -/
def usualPlaces (workingDirectory home : String) : List String :=
  [workingDirectory ++ "/configs/addrconf.yaml", workingDirectory ++ "/addrconf.yaml",
    home ++ "/.config/mcp-addrconf/addrconf.yaml", "/etc/mcp-addrconf/addrconf.yaml"]

def named? (text : Option String) : Option String :=
  text.filter (· != "")

/-- The path of the configuration, or none if nothing is named and no usual place is there. -/
def locate? (explicit environment : Option String) (workingDirectory home : String)
    (isThere : String → Bool) : Option String :=
  named? explicit <|> named? environment <|>
    (usualPlaces workingDirectory home).find? isThere

def missingMessage : String :=
  "Could not find addrconf.yaml. Create one in ./configs/addrconf.yaml"

/-- The files that there are, by their paths; a folder is there if a file is in it, or by itself. -/
structure FileTree where
  files : List (List String)
  folders : List (List String)
deriving DecidableEq, Repr

namespace FileTree

inductive Fault
  | missing
  /-- A file stands where a folder should be. -/
  | noFolder
  | folder
deriving DecidableEq, Repr

/-- The root is a folder. -/
def isFolder (t : FileTree) (names : List String) : Bool :=
  names.isEmpty || t.folders.contains names ||
    t.files.any fun file => file.length > names.length && names.isPrefixOf file

def enter (t : FileTree) (place : List String) (name : String) : Except Fault (List String) :=
  if t.files.contains place then .error .noFolder
  else if t.isFolder place then .ok (if name == ".." then place.dropLast else place ++ [name])
  else .error .missing

def reach (t : FileTree) (path : Path) : Except Fault (List String) := do
  let place ← path.names.foldlM t.enter []
  if t.files.contains place then return place
  throw (if t.isFolder place then .folder else .missing)

def isThere (t : FileTree) (path : Path) : Bool :=
  match t.reach path with
  | .ok _ => true
  | .error fault => fault = .folder

end FileTree

end Leasehold.Inventory
