import Leasehold.Executor
import Leasehold.Reconciliation.Pass

/-! The script runs of a pass, carried out: the executor runs each one, and its report becomes the
result that the pass goes on with. -/

namespace Leasehold

/-- The job of a call. A kind without a time limit of its own takes the standing one. -/
def Call.job (c : Call) (standing : Number) : Executor.Job where
  kind := c.kind
  role := c.role
  argv := c.argv
  artifact := c.artifact.map .whole
  timeout := c.timeout.getD standing

namespace Executor

def Escape.message : Escape → String
  | .timeout => "int too large to convert to float"
  | .noCommand => "list index out of range"
  | .encoding artifact => Utf8.unencodable artifact

def Report.runResult (r : Report) : RunResult :=
  match r.result with
  | .ok result => .ended result.success result.output result.error
  | .error escape => .crashed (.other escape.message)

end Executor

/-- What scripts meet: the standing time limit, the path of the artifact, of which there is only one at
a time, and the process of each script, whenever it is started. -/
structure Surroundings where
  standing : Number
  path : String
  process : Kind → Role → Except SystemFault Child

def Surroundings.run (s : Surroundings) (c : Call) : Executor.Report :=
  Executor.run (c.job s.standing) s.path [] fun _ => s.process c.kind c.role

end Leasehold
