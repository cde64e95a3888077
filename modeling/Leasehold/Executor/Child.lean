import Leasehold.Text.Quoted
import Leasehold.Text.Hex

/-! What the operating system shows of a script: that its process could not be started, or how the
process ended and what it wrote. -/

namespace Leasehold

structure SystemFault where
  code : Int
  text : String
  file : Option String
deriving DecidableEq, Repr

namespace SystemFault

/-- The message: code, text, and the file in question if there is one. -/
def message (f : SystemFault) : String :=
  "[Errno " ++ toString f.code ++ "] " ++ f.text ++
    (match f.file with
      | some file => ": " ++ Quoted.text file
      | none => "")

/-- The codes for a resource that is busy just now. -/
def isPassing (f : SystemFault) : Bool :=
  [11, 114, 115].contains f.code

end SystemFault

/-- A process that was started. One that hangs runs until it is killed, unless it has ended by itself at
that moment, with a status that may be lost. A process may take its artifact away. -/
structure Child where
  status : Int
  stdout : Bytes
  stderr : Bytes
  hangs : Bool
  endedAlone : Option (Option Int)
  removesArtifact : Bool
deriving DecidableEq, Repr

namespace Child

def quiet : Child := ⟨0, [], [], false, none, false⟩

/-- The status of a process after it was killed. -/
def killedStatus (p : Child) : Option Int :=
  p.endedAlone.getD (some (-9))

end Child

end Leasehold
