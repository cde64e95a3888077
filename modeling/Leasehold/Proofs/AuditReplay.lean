import Leasehold.Proofs.BackupDiscipline

/-! The audit trail read again. The state of a kind changes exactly when a success is put on record, and as the
record says; so what is installed, and whether a backup is held, can be told from the trail alone. -/

namespace Leasehold

/-- What the records of a kind tell: the lease that is installed, and whether a backup is held. -/
structure Applied where
  installedSeqno : Int
  haveBackup : Bool
deriving DecidableEq, Repr

namespace Applied

def original : Applied := ⟨notInstalled, false⟩

def after (a : Applied) (seqno : Int) : Role → Applied
  | .backup => { a with haveBackup := true }
  | .install => { a with installedSeqno := seqno }
  | .restore => original

def reading (a : Applied) (c : Audit.Change) : Applied :=
  match c.success, Role.ofName? c.operation with
  | true, some role => a.after c.seqno role
  | _, _ => a

def replay (records : List Audit.Change) : Applied :=
  records.foldl reading original

theorem reading_failure (a : Applied) {c : Audit.Change} (failed : c.success = false) : a.reading c = a := by
  simp [reading, failed]

theorem reading_success (a : Applied) {c : Audit.Change} (role : Role) (succeeded : c.success = true)
    (operation : c.operation = role.name) : a.reading c = a.after c.seqno role := by
  have known : Role.ofName? role.name = some role := by cases role <;> decide
  rw [reading, succeeded, operation, known]

end Applied

theorem Kind.name_injective {kind other : Kind} (same : kind.name = other.name) : kind = other := by
  cases kind <;> cases other <;> first | rfl | (revert same; decide)

def Updater.applied (u : Updater) : Applied := ⟨u.installedSeqno, u.haveBackup⟩

namespace Pass

variable {table : LeaseTable} {origins : List (Int × Scalar)} {base u u' : Updater} {runs : List ScriptRun}
  {r : Running} {result : RunResult} {changes : List Audit.Change} {next : Next}

/-- What a script run does to the state of its kind is what its record tells. -/
theorem Concluded.applied (concluded : Concluded table origins u r result changes next u')
    (heading : Heading base runs u r) : changes.foldl Applied.reading u.applied = u'.applied := by
  have success (output : String) (error : Option String) :
      u.applied.reading (change table origins u r true output error) =
        u.applied.after (change table origins u r true output error).seqno r.call.role :=
    Applied.reading_success u.applied r.call.role rfl rfl
  cases concluded with
  | crashed fault =>
    obtain ⟨-, -, installed, backed⟩ := afterFault_rest u fault
    rw [Updater.applied, Updater.applied, installed, backed]
    rfl
  | unwritten => rfl
  | failed output error written =>
    exact Applied.reading_failure u.applied (c := change table origins u r false output error) rfl
  | restored output error work written =>
    cases heading with
    | saving | installing | saved => cases work
    | restoring => exact success output error
  | saved output error source artifact work written =>
    cases heading with
    | restoring | installing | saved => cases work
    | saving => exact success output error
  | installed output error source artifact work written =>
    cases heading with
    | restoring | saving => cases work
    | installing | saved =>
      cases work
      exact success output error

theorem Concluded.named (concluded : Concluded table origins u r result changes next u') :
    ∀ c ∈ changes, c.kind = u.kind.name := by
  cases concluded with
  | crashed | unwritten => simp
  | failed | restored | saved | installed => exact List.forall_mem_singleton.mpr rfl

/-- What is installed can always be named in a record. -/
theorem Concluded.writable (concluded : Concluded table origins u r result changes next u')
    (writable : Whole.isUnwritable u.installedSeqno = false) : Whole.isUnwritable u'.installedSeqno = false := by
  cases concluded with
  | crashed fault =>
    rw [(afterFault_rest u fault).2.2.1]
    exact writable
  | unwritten | failed | saved => exact writable
  | restored => simp [Whole.isUnwritable, notInstalled]
  | installed output error source artifact work written => exact change_written work written

end Pass

/-- The state of a kind is what the records of its script runs tell, and every record names the kind. -/
structure Recorded (kind : Kind) (u : Updater) (runs : List ScriptRun) : Prop where
  label : u.kind = kind
  told : Applied.replay (runs.flatMap ScriptRun.changes) = u.applied
  named : ∀ run ∈ runs, ∀ c ∈ run.changes, c.kind = kind.name
  writable : Whole.isUnwritable u.installedSeqno = false
  before : ∀ run ∈ runs, Whole.isUnwritable run.updater.installedSeqno = false

namespace Recorded

variable {kind : Kind} {u u' base : Updater} {runs before : List ScriptRun} {r : Running}

theorem planned (recorded : Recorded kind u runs) {builders : Artifact.Builders} {table : LeaseTable} {next : Next}
    (planned : Pass.Planned builders table u next u') : Recorded kind u' runs := by
  cases planned with
  | standing | bare | restoring | saving | installing => exact recorded
  | unbuilt source fault => cases fault <;> exact { recorded with }

theorem concluded (recorded : Recorded kind u runs) (heading : Pass.Heading base before u r) {table : LeaseTable}
    {origins : List (Int × Scalar)} {result : RunResult} {changes : List Audit.Change} {next : Next}
    (concluded : Pass.Concluded table origins u r result changes next u') :
    Recorded kind u' (runs ++ [⟨r, u, result, changes⟩]) := by
  refine ⟨(concluded.kind heading.outcome).1.trans recorded.label, ?_, ?_, concluded.writable recorded.writable, ?_⟩
  · rw [List.flatMap_append, Applied.replay, List.foldl_append]
    simpa [show List.foldl Applied.reading Applied.original _ = _ from recorded.told] using concluded.applied heading
  · exact List.forall_mem_append.mpr ⟨recorded.named, List.forall_mem_singleton.mpr (recorded.label ▸ concluded.named)⟩
  · exact List.forall_mem_append.mpr ⟨recorded.before, List.forall_mem_singleton.mpr recorded.writable⟩

theorem lasting : Lasting Recorded where
  sources _ recorded := { recorded with }
  planned recorded _ planned := recorded.planned planned
  concluded recorded _ heading concluded := recorded.concluded heading concluded

theorem blank (kind : Kind) : Recorded kind (.blank kind) [] where
  label := rfl
  told := rfl
  named := by simp
  writable := by simp [Whole.isUnwritable, Updater.blank, notInstalled]
  before := by simp

theorem configured (kind : Kind) (builders : Artifact.Builders) (scripts : Option Scripts) :
    Recorded kind (Registry.configureKind builders (.blank kind) scripts).1 [] := by
  have blank := blank kind
  unfold Registry.configureKind
  cases scripts with
  | none => exact blank
  | some s =>
    simp only
    split
    next => exact blank
    next => split <;> exact { blank with }

end Recorded

namespace Engine

def written (e : Engine) : Move → List Audit.Change
  | .begin store => (e.begin store).changes
  | .resume table result => (e.resume table result).changes
  | _ => []

def trail (e : Engine) : List Move → List Audit.Change
  | [] => []
  | m :: rest => e.written m ++ trail (e.step m).1 rest

theorem step_written (e : Engine) (m : Move) : e.written m = (e.step m).2.flatMap ScriptRun.changes := by
  cases m with
  | configure | rebuild | notice | schedule | wake | request => rfl
  | begin store =>
    simp only [written, begin, step]
    split
    next who rest free line =>
      exact (Pass.advance_advanced store.table (Pass.originsOf store) Kind.all
        (e.registry.configure.1.modifyAll fun u => u.collect store) []).2
    next => rfl
  | resume table result =>
    cases current : e.current with
    | none => simp [written, step, resume, ended, current]
    | some turn =>
      obtain ⟨who, pass⟩ := turn
      cases waiting : pass.waiting with
      | none => simp [written, step, resume, ended, current, goOn, Pass.resume, Pass.ended, waiting]
      | some script =>
        obtain ⟨running, rest⟩ := script
        simp [written, step, resume, ended, current, goOn, Pass.ended, waiting]
  | complete =>
    simp only [written, step]
    split <;> rfl

/-- The trail is what the script runs have left there. -/
theorem trail_eq (e : Engine) (moves : List Move) : e.trail moves = (e.run moves).2.flatMap ScriptRun.changes := by
  induction moves generalizing e with
  | nil => rfl
  | cons m rest ih => rw [trail, run, List.flatMap_append, step_written, ih]

variable (scripts : PerKind (Option Scripts)) (builders : Artifact.Builders)

theorem run_recorded (moves : List Move) (kind : Kind) :
    Recorded kind (((initial scripts builders).run moves).1.registry.updater kind)
      (ScriptRun.ofKind kind ((initial scripts builders).run moves).2) := by
  have upholds : (initial scripts builders).registry.Upholds [] Recorded :=
    initial_upholds .blank fun kind other => .configured kind other _
  exact (run_keeps Recorded.lasting moves (initial_orderly scripts builders) upholds).2.now kind

private theorem filter_records {runs : List ScriptRun} {kind : Kind}
    (named : ∀ run ∈ runs, ∀ c ∈ run.changes, c.kind = run.kind.name) :
    (runs.flatMap ScriptRun.changes).filter (fun c => c.kind = kind.name) =
      (ScriptRun.ofKind kind runs).flatMap ScriptRun.changes := by
  induction runs with
  | nil => rfl
  | cons run rest ih =>
    obtain ⟨here, later⟩ := List.forall_mem_cons.mp named
    rw [List.flatMap_cons, List.filter_append, ih later]
    by_cases same : run.kind = kind
    · subst same
      rw [List.filter_eq_self.mpr fun c member => by simpa using here c member, ScriptRun.ofKind, ScriptRun.ofKind,
        List.filter_cons_of_pos (by simp), List.flatMap_cons]
    · have none : run.changes.filter (fun c => c.kind = kind.name) = [] := by
        refine List.filter_eq_nil_iff.mpr fun c member name => same (Kind.name_injective ?_)
        exact (here c member).symm.trans (by simpa using name)
      rw [none, List.nil_append, ScriptRun.ofKind, ScriptRun.ofKind, List.filter_cons_of_neg (by simpa using same)]

/-- The records that name a kind tell its state. -/
theorem run_replay (moves : List Move) (kind : Kind) :
    Applied.replay (((initial scripts builders).trail moves).filter fun c => c.kind = kind.name) =
      (((initial scripts builders).run moves).1.registry.updater kind).applied := by
  have named : ∀ run ∈ ((initial scripts builders).run moves).2, ∀ c ∈ run.changes, c.kind = run.kind.name :=
    fun run member => (run_recorded scripts builders moves run.kind).named run (List.mem_filter.mpr ⟨member, by simp⟩)
  rw [trail_eq, filter_records named]
  exact (run_recorded scripts builders moves kind).told

end Engine
end Leasehold
