import Leasehold.Literal
import Leasehold.Number.Whole
import Leasehold.Path

/-! Settings of the logs, read from environment variables: the least level to show, the file, its size
limit in megabytes, and how many old files to keep. -/

namespace Leasehold.Log

structure Settings where
  level : Scalar
  file : Path
  maxBytes : Int
  backups : Int
deriving DecidableEq, Repr

namespace Settings

/-- What the names of the logging vocabulary stand for: the levels, and the standard line layout. -/
def levels : List (String × Scalar) :=
  [("NOTSET", .int 0), ("DEBUG", .int 10), ("INFO", .int 20), ("WARN", .int 30), ("WARNING", .int 30),
    ("ERROR", .int 40), ("CRITICAL", .int 50), ("FATAL", .int 50),
    ("BASIC_FORMAT", .str "%(levelname)s:%(name)s:%(message)s")]

/-- The upper case of a letter of the vocabulary; the dotless i and the long s have ASCII upper cases. -/
def upper (c : Char) : Char :=
  if c == 'ı' then 'I' else if c == 'ſ' then 'S' else c.toUpper

/-- The level of a name in either case. Unknown names mean the level of information. -/
def levelOf (name : String) : Scalar :=
  ((levels.lookup (String.ofList (name.toList.map upper))).getD (.int 20))

/-- A variable that should hold a whole number and does not. -/
structure Fault where
  text : String
  cause : Whole.Fault
deriving DecidableEq, Repr

def Fault.message (f : Fault) : String :=
  f.cause.message (Quoted.text f.text)

def number (text : String) : Except Fault Int :=
  (Whole.parse text).mapError fun cause => ⟨text, cause⟩

/-- Reads the settings from the variables that are set, in a home directory. -/
def ofEnvironment (home : String) (environment : List (String × String)) : Except Fault Settings := do
  let setting (name standing : String) : String := (environment.lookup name).getD standing
  let megabytes ← number (setting "ADDRCONF_LOG_MAX_SIZE" "10")
  let backups ← number (setting "ADDRCONF_LOG_BACKUPS" "5")
  return {
    level := levelOf (setting "ADDRCONF_LOG_LEVEL" "INFO")
    file := .ofText (setting "ADDRCONF_LOG_FILE" (home ++ "/.addrconf/addrconf.log"))
    maxBytes := megabytes * 1048576
    backups := backups }

/-- The file of the performance log stands beside the main one. A file path without a name has none. -/
def performanceFile (s : Settings) : Except String Path :=
  match s.file.withName? "addrconf-perf.log" with
  | some path => .ok path
  | none => .error ("PosixPath(" ++ Quoted.text s.file.text ++ ") has an empty name")

end Settings

end Leasehold.Log
