/-! Classes of errors. An operating system error belongs to a class by its code; a class belongs to
wider ones, so that a rule for a class also covers what belongs to it. -/

namespace Leasehold.ErrorClass

/-- The codes that have a class of their own, and the stems of its name. -/
def coded : List (List Int × String) := [
  ([11, 114, 115], "BlockingIO"), ([10], "ChildProcess"), ([32, 108], "BrokenPipe"),
  ([103], "ConnectionAborted"), ([111], "ConnectionRefused"), ([104], "ConnectionReset"),
  ([17], "FileExists"), ([2], "FileNotFound"), ([4], "Interrupted"), ([21], "IsADirectory"),
  ([20], "NotADirectory"), ([1, 13], "Permission"), ([3], "ProcessLookup"), ([110], "Timeout")]

def ofCode (code : Int) : String :=
  ((coded.find? fun c => c.1.contains code).map (·.2)).getD "OS" ++ "Error"

/-- The classes that stand beside those of the operating system. -/
def others : List String := ["ValueError", "RuntimeError", "KeyError"]

def ancestors (name : String) : List String :=
  [name, "Exception", "BaseException"] ++
    (if name == "KeyError" then ["LookupError"] else []) ++
    (if others.contains name then [] else ["OSError", "IOError", "EnvironmentError"]) ++
    (if name.startsWith "Connection" || name == "BrokenPipeError" then ["ConnectionError"] else [])

/-- An error of a class falls under one of the named classes. -/
def isAmong (name : String) (classes : List String) : Bool :=
  (ancestors name).any classes.contains

end Leasehold.ErrorClass
