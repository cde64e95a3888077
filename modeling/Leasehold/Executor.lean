import Leasehold.Executor.Child
import Leasehold.Kind
import Leasehold.Literal
import Leasehold.Retry
import Leasehold.Scripts
import Leasehold.Text.Lines
import Leasehold.Text.Utf8

/-! Running a script. The artifact, if there is one, is written to a file whose path ends the command
line; starting is tried again while the system is busy; and however the script ends the file is gone
afterwards and a result is given. -/

namespace Leasehold

structure ScriptResult where
  success : Bool
  command : List String
  status : Option Int
  stdout : String
  stderr : String
  error : Option String
  timedOut : Bool
deriving DecidableEq, Repr

namespace ScriptResult

/-- Both streams one after the other, each on lines of its own. -/
def joined (stdout stderr : String) : String :=
  Text.join "\n" ([stdout, stderr].filter (· != ""))

def output (r : ScriptResult) : String :=
  joined r.stdout r.stderr

def view (r : ScriptResult) : Value :=
  .object [("success", .bool r.success), ("command", .strs r.command),
    ("returncode", .optInt r.status), ("error", .optStr r.error), ("timed_out", .bool r.timedOut),
    ("stdout", .str r.stdout), ("stderr", .str r.stderr), ("output", .str r.output)]

/-- The result of a run that ended before there was any output. -/
def failed (command : List String) (status : Option Int) (error : String) (timedOut : Bool) :
    ScriptResult :=
  ⟨false, command, status, "", "", some error, timedOut⟩

end ScriptResult

namespace Executor

/-- The files that hold artifacts, by path. -/
abbrev Folder := List (String × String)

namespace Folder

def write (folder : Folder) (path content : String) : Folder :=
  folder ++ [(path, content)]

def remove (folder : Folder) (path : String) : Folder :=
  folder.filter fun file => file.1 ≠ path

def content? (folder : Folder) (path : String) : Option String :=
  folder.lookup path

end Folder

/-- Command lines that can be added to, by their numbers: whoever knows the number of one sees what others add. -/
abbrev Commands := List (List String)

namespace Commands

def words (commands : Commands) (number : Nat) : List String :=
  commands.getD number []

def copy (commands : Commands) (number : Nat) : Commands :=
  commands ++ [commands.words number]

def add (commands : Commands) (number : Nat) (word : String) : Commands :=
  commands.modify number (· ++ [word])

end Commands

/-- A script to run: what for, its command, the artifact if it gets one, and how long it may take. -/
structure Job where
  kind : Kind
  role : Role
  argv : List String
  artifact : Option Text.Spelled
  timeout : Number
deriving Repr

/-- What the artifact's file holds: the artifact, if it is whole. -/
def Job.content? (job : Job) : Option String :=
  job.artifact.bind Text.Spelled.whole?

/-- One attempt to start a process: its environment, its command line, and the content of its artifact
file at that moment. -/
structure Spawn where
  kind : Kind
  role : Role
  argv : List String
  artifact : Option String
deriving DecidableEq, Repr

def Spawn.view (s : Spawn) : Value :=
  .object [("kind", .str s.kind.name), ("action", .str s.role.name), ("argv", .strs s.argv),
    ("artifact", .optStr s.artifact)]

/-- What keeps a run from giving a result. -/
inductive Escape
  /-- The time limit is beyond every clock. -/
  | timeout
  /-- There is no command to name in a message. -/
  | noCommand
  /-- No file can hold the artifact. -/
  | encoding (artifact : Text.Torn)
deriving DecidableEq, Repr

/-- A run: its result, the attempts to start it, the waits between them, the artifact files that are
left, and the caller's command line as it is then. -/
structure Report where
  result : Except Escape ScriptResult
  spawned : List Spawn
  waits : List Retry.Span
  folder : Folder
  argv : List String

/-- The caller's command line and the run's copy of it. -/
def copied (job : Job) : Commands :=
  Commands.copy [job.argv] 0

/-- Both command lines when the process is started: the artifact's path comes last in the run's one. -/
def completed (job : Job) (path : String) : Commands :=
  match job.content? with
  | some _ => (copied job).add 1 path
  | none => copied job

def commandLine (job : Job) (path : String) : List String :=
  (completed job path).words 1

def prepared (job : Job) (path : String) (folder : Folder) : Folder :=
  match job.content? with
  | some content => folder.write path content
  | none => folder

def spawnOf (job : Job) (path : String) (folder : Folder) : Spawn where
  kind := job.kind
  role := job.role
  argv := commandLine job path
  artifact := if job.content?.isSome then folder.content? path else none

def timeoutMessage (timeout : Number) : String :=
  "timed out after " ++ timeout.brief ++ "s"

/-- The text of what a process wrote, without blanks around it. -/
def shown (bytes : Bytes) : String :=
  Text.trim Text.isBlank (Utf8.decodeLossy bytes)

/-- The status of a failed process and the last line that it wrote about it. -/
def statusMessage (status : Int) (stderr : String) : String :=
  "exited with status " ++ toString status ++
    (match (Text.outputLines stderr).getLast? with
      | some line => ": " ++ line
      | none => "")

def ended (command : List String) (p : Child) : ScriptResult :=
  let stderr := shown p.stderr
  let success := p.status == 0
  { success := success
    command := command
    status := some p.status
    stdout := shown p.stdout
    stderr := stderr
    error := if success then none else some (statusMessage p.status stderr)
    timedOut := false }

def resultOf (job : Job) (command : List String) (p : Child) : Except Escape ScriptResult :=
  if !job.timeout.isMeasurable then .error .timeout
  else if p.hangs || job.timeout.isOver then
    .ok (.failed command p.killedStatus (timeoutMessage job.timeout) true)
  else .ok (ended command p)

def notStarted (command : List String) (f : SystemFault) : Except Escape ScriptResult :=
  if command.isEmpty then .error .noCommand else .ok (.failed command none f.message false)

/-- The result of a run whose last attempt to start its process met this. -/
def resultFor (job : Job) (command : List String) : Except SystemFault Child → Except Escape ScriptResult
  | .ok p => resultOf job command p
  | .error f => notStarted command f

/-- The folder that a run leaves. The process may have removed its artifact; if not it is removed now. -/
def tidied (job : Job) (path : String) (started : Except SystemFault Child) (folder : Folder) :
    Folder :=
  if job.content?.isNone then folder
  else
    let left := match started with
      | .ok p => if p.removesArtifact then folder.remove path else folder
      | .error _ => folder
    left.remove path

/-- Runs a job. `outcome` tells what each attempt to start its process meets, counted from one. When the
artifact cannot be written nothing is started, and its file stays empty. -/
def run (job : Job) (path : String) (folder : Folder)
    (outcome : Nat → Except SystemFault Child) : Report :=
  match job.artifact with
  | some (.torn t) =>
    { result := .error (.encoding t)
      spawned := []
      waits := []
      folder := folder.write path ""
      argv := (copied job).words 0 }
  | _ =>
    let command := commandLine job path
    let folder := prepared job path folder
    let report := Retry.run .standard SystemFault.isPassing outcome
    let spawn := spawnOf job path folder
    { result := resultFor job command report.result
      spawned := List.replicate report.attempts spawn
      waits := report.waits
      folder := tidied job path report.result folder
      argv := (completed job path).words 0 }

end Executor

end Leasehold
