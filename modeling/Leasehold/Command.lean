import Leasehold.Literal
import Leasehold.Text.Words

/-! Script commands: a text cut into words as a shell does, or a list of arguments. A command without
words is no command. -/

namespace Leasehold

namespace Command

inductive Fault
  | words (fault : Words.Fault)
  | entry (v : Value)
  /-- An entry that holds a whole number with too many digits to be written. -/
  | unwritable

def words (v : Value) : Except Fault (List String) :=
  match v.unfold with
  | .scalar .null => .ok []
  | .scalar (.str s) => (Words.split s).mapError .words
  | .list items =>
    if items.all Value.isWritable then .ok (items.map Value.display) else .error .unwritable
  | _ => .error (if v.isWritable then .entry v else .unwritable)

/-- Reads a command from an entry; none if it has no words. -/
def parse (v : Value) : Except Fault (Option (List String)) := do
  let argv ← words v
  return if argv.isEmpty then none else some argv

def Fault.message : Fault → String
  | .words fault => fault.message
  | .entry v => "Invalid script entry: " ++ v.literal
  | .unwritable => Whole.unwritable

end Command

end Leasehold
