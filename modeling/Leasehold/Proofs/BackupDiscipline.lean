import Leasehold.Proofs.AuditLines
import Leasehold.Proofs.EngineRuns

/-! The host's own settings are never lost. A backup is taken while none is held, and before anything is
installed; it is kept until it has been brought back. Whatever scripts, builders and leases do, what is saved
is therefore never a setting that came from a lease. -/

namespace Leasehold

namespace ScriptRun

def held (runs : List ScriptRun) : Bool :=
  runs.foldl (fun held run =>
    match run.succeeded, run.role with
    | true, .backup => true
    | true, .restore => false
    | _, _ => held) false

def alters (run : ScriptRun) : Bool :=
  match run.running.work with
  | .backup _ _ => false
  | _ => true

def lease? (run : ScriptRun) : Option Int :=
  match run.running.work with
  | .install source _ => some source.seqno
  | _ => none

/-- The latest of the runs that changed the host's settings, as far as they are on record. -/
def latestEffect? (runs : List ScriptRun) : Option ScriptRun :=
  (runs.filter fun run => run.alters && run.effective).getLast?

def installed (runs : List ScriptRun) : Int :=
  ((latestEffect? runs).bind lease?).getD notInstalled

theorem held_append (runs : List ScriptRun) (run : ScriptRun) : held (runs ++ [run]) =
    match run.succeeded, run.role with
    | true, .backup => true
    | true, .restore => false
    | _, _ => held runs := by
  simp [held]

theorem latestEffect?_append (runs : List ScriptRun) (run : ScriptRun) : latestEffect? (runs ++ [run]) =
    if run.alters && run.effective then some run else latestEffect? runs := by
  unfold latestEffect?
  rw [List.filter_append]
  cases counts : run.alters && run.effective <;> simp [List.filter, counts, -List.getLast?_filter]

theorem installed_append (runs : List ScriptRun) (run : ScriptRun) : installed (runs ++ [run]) =
    if run.alters && run.effective then run.lease?.getD notInstalled else installed runs := by
  rw [installed, latestEffect?_append]
  split <;> rfl

/-- Only a restoration that succeeds gives a backup up. -/
theorem restored_of_lost {runs more : List ScriptRun} (before : held runs = true)
    (after : held (runs ++ more) = false) : ∃ run ∈ more, run.role = .restore ∧ run.succeeded = true := by
  induction more generalizing runs with
  | nil => simp [before] at after
  | cons run rest ih =>
    cases still : held (runs ++ [run]) with
    | true =>
      obtain ⟨later, member, restored⟩ := ih still (by simpa using after)
      exact ⟨later, List.mem_cons_of_mem run member, restored⟩
    | false =>
      rw [held_append] at still
      split at still
      next => cases still
      next succeeded role => exact ⟨run, List.mem_cons_self, role, succeeded⟩
      next => simp [before] at still

end ScriptRun

/-- The given scripts can save the host's own settings and bring them back. -/
def Saves (given : Option Scripts) : Prop := given.any Scripts.hasBackupRestore = true

/-- What is asked of a script that runs, with the runs of the kind before it. -/
structure Lawful (given : Option Scripts) (before : List ScriptRun) (r : Running) (u : Updater) : Prop where
  enabled : u.enabled = true
  equipped : r.call.role ≠ .install → Saves given
  backup : r.call.role = .backup → ScriptRun.held before = false
  install : r.call.role = .install → Saves given → ScriptRun.held before = true
  restore : r.call.role = .restore → ScriptRun.held before = true ∧ u.selectSource = none

/-- Each run was lawful when it began. -/
def Obeyed (given : Option Scripts) (runs : List ScriptRun) : Prop :=
  ∀ before run after, runs = before ++ run :: after → Lawful given before run.running run.updater

/-- No backup is taken between the attempt to install something and the restoration of what was before. -/
def OriginalsKept (runs : List ScriptRun) : Prop :=
  ∀ before attempt between backup after, runs = before ++ attempt :: between ++ backup :: after →
    attempt.role = .install → backup.role = .backup → ∃ run ∈ between, run.role = .restore ∧ run.succeeded = true

/-- A kind's state agrees with the scripts that were given for it and with their runs, and the runs were lawful. -/
structure Disciplined (given : Option Scripts) (u : Updater) (runs : List ScriptRun) : Prop where
  scripts : u.enabled = true → ∃ s, given = some s ∧ u.scripts = some (Registry.usable s)
  backup : u.haveBackup = ScriptRun.held runs
  installed : u.installedSeqno = ScriptRun.installed runs
  writable : Whole.isUnwritable u.installedSeqno = false
  safe : Saves given → u.haveBackup = false → u.installedSeqno = notInstalled
  obeyed : Obeyed given runs

theorem Obeyed.append {given : Option Scripts} {runs : List ScriptRun} {run : ScriptRun} (obeyed : Obeyed given runs)
    (lawful : Lawful given runs run.running run.updater) : Obeyed given (runs ++ [run]) := by
  intro before other after split
  obtain rfl | ⟨front, last, rfl⟩ := after.eq_nil_or_concat
  · obtain ⟨rfl, same⟩ := List.append_inj' split rfl
    cases same
    exact lawful
  · rw [List.concat_eq_append, ← List.cons_append, ← List.append_assoc] at split
    exact obeyed before other front (List.append_inj' split rfl).1

theorem Obeyed.originalsKept {given : Option Scripts} {runs : List ScriptRun} (obeyed : Obeyed given runs) :
    OriginalsKept runs := by
  intro before attempt between backup after split install save
  have saved := obeyed (before ++ attempt :: between) backup after split
  have attempted := obeyed before attempt (between ++ backup :: after) (by simpa using split)
  have equipped : Saves given := saved.equipped (by rw [show backup.running.call.role = .backup from save]; decide)
  obtain ⟨run, member, role, succeeded⟩ :=
    ScriptRun.restored_of_lost (attempted.install install equipped) (saved.backup save)
  -- The attempt itself is no restoration, so one came after it.
  obtain rfl | later := List.mem_cons.mp member
  · rw [install] at role
    cases role
  · exact ⟨run, later, role, succeeded⟩

namespace Registry

theorem usable_saves {s : Scripts} (both : s.hasBackupRestore = true) : usable s = s := by
  simp [usable, both]

theorem usable_bare {s : Scripts} (lacking : s.hasBackupRestore = false) {role : Role} (other : role ≠ .install) :
    (usable s).command? role = none := by
  cases role with
  | install => exact absurd rfl other
  | backup | restore => simp [usable, lacking, Scripts.command?]

end Registry

/-- A run that installs nothing is on record whenever what is installed can be. -/
theorem Pass.change_writable {table : LeaseTable} {origins : List (Int × Scalar)} {u : Updater} {r : Running}
    {success : Bool} {output : String} {error : Option String} (writable : Whole.isUnwritable u.installedSeqno = false)
    (other : ∀ source artifact, r.work ≠ .install source artifact) :
    (change table origins u r success output error).unwritable? = none := by
  rw [Audit.Change.unwritable?_eq_none]
  cases work : r.work with
  | install source artifact => exact absurd work (other source artifact)
  | restore | backup => simp [change, work, writable]

theorem Pass.change_written {table : LeaseTable} {origins : List (Int × Scalar)} {u : Updater} {r : Running}
    {source : Source} {artifact output : String} {success : Bool} {error : Option String}
    (work : r.work = .install source artifact)
    (written : (change table origins u r success output error).unwritable? = none) :
    Whole.isUnwritable source.seqno = false := by
  have number := ((Audit.Change.unwritable?_eq_none _).mp written).1
  simpa only [change, work, Option.map_some, Option.getD_some] using number

namespace Disciplined

variable {given : Option Scripts} {u u' base : Updater} {runs before : List ScriptRun} {r : Running}

theorem saves_of_command (disciplined : Disciplined given u runs) (enabled : u.enabled = true) {role : Role}
    {argv : List String} (other : role ≠ .install) (command : u.command? role = some argv) : Saves given := by
  obtain ⟨s, rfl, scripts⟩ := disciplined.scripts enabled
  cases both : s.hasBackupRestore with
  | true => exact both
  | false => simp [Updater.command?, scripts, Registry.usable_bare both other] at command

theorem command_of_saves (disciplined : Disciplined given u runs) (enabled : u.enabled = true)
    (saves : Saves given) : u.command? .backup ≠ none := by
  obtain ⟨s, rfl, scripts⟩ := disciplined.scripts enabled
  have both : s.hasBackupRestore = true := saves
  have backup : s.backup.isSome = true := (Bool.and_eq_true_iff.mp both).1
  intro missing
  simp only [Updater.command?, scripts, Registry.usable_saves both, Option.bind_some, Scripts.command?] at missing
  rw [missing] at backup
  cases backup

theorem lawful (disciplined : Disciplined given u runs) (enabled : u.enabled = true)
    (heading : Pass.Heading base before u r) : Lawful given runs r u := by
  have backup := disciplined.backup
  cases heading with
  | restoring argv selected backed command =>
    exact ⟨enabled, fun _ => disciplined.saves_of_command enabled (by decide) command, nofun, nofun,
      fun _ => ⟨backup.symm.trans backed, selected⟩⟩
  | saving source artifact argv selected unsaved command =>
    exact ⟨enabled, fun _ => disciplined.saves_of_command enabled (by decide) command,
      fun _ => backup.symm.trans unsaved, nofun, nofun⟩
  | installing source artifact selected safe =>
    refine ⟨enabled, fun other => absurd rfl other, nofun, fun _ saves => backup.symm.trans ?_, nofun⟩
    cases backed : u.haveBackup with
    | true => rfl
    | false => exact absurd (safe backed) (disciplined.command_of_saves enabled saves)
  | saved run source artifact selected unsaved role effective =>
    exact ⟨enabled, fun other => absurd rfl other, nofun, fun _ _ => backup.symm, nofun⟩

private theorem unchanged (disciplined : Disciplined given u runs) {run : ScriptRun}
    (lawful : Lawful given runs run.running run.updater) (held : ScriptRun.held (runs ++ [run]) = ScriptRun.held runs)
    (installed : ScriptRun.installed (runs ++ [run]) = ScriptRun.installed runs) :
    Disciplined given u (runs ++ [run]) :=
  ⟨disciplined.scripts, disciplined.backup.trans held.symm, disciplined.installed.trans installed.symm,
    disciplined.writable, disciplined.safe, disciplined.obeyed.append lawful⟩

theorem faulted (disciplined : Disciplined given u runs) (fault : ApplyFault) :
    Disciplined given (u.afterFault fault) runs := by
  cases fault with
  | script | other => exact disciplined
  | unsupported => exact { disciplined with scripts := nofun }

private theorem of_failure (disciplined : Disciplined given u runs) {run : ScriptRun}
    (lawful : Lawful given runs run.running run.updater) (failed : run.succeeded = false) :
    Disciplined given u (runs ++ [run]) := by
  refine disciplined.unchanged lawful ?_ ?_
  · rw [ScriptRun.held_append, failed]
  · simp [ScriptRun.installed_append, ScriptRun.effective, failed]

private theorem of_unwritten (disciplined : Disciplined given u runs) (lawful : Lawful given runs r u)
    (heading : Pass.Heading base before u r) {table : LeaseTable} {origins : List (Int × Scalar)} {success : Bool}
    {output : String} {error : Option String} {message : String}
    (lost : (Pass.change table origins u r success output error).unwritable? = some message) :
    Disciplined given u (runs ++ [⟨r, u, .ended success output error, []⟩]) := by
  -- Backups and restorations name what is installed, and that number has been written before.
  have install : r.call.role = .install := by
    cases heading with
    | installing | saved => rfl
    | restoring | saving =>
      rw [Pass.change_writable disciplined.writable fun _ _ work => by cases work] at lost
      cases lost
  refine disciplined.unchanged lawful ?_ ?_
  · rw [ScriptRun.held_append, show ScriptRun.role ⟨r, u, .ended success output error, []⟩ = .install from install]
    split
    next role => cases role
    next role => cases role
    next => rfl
  · simp [ScriptRun.installed_append, ScriptRun.effective]

theorem concluded (disciplined : Disciplined given u runs) (enabled : u.enabled = true)
    (heading : Pass.Heading base before u r) {table : LeaseTable} {origins : List (Int × Scalar)} {result : RunResult}
    {changes : List Audit.Change} {next : Next}
    (concluded : Pass.Concluded table origins u r result changes next u') :
    Disciplined given u' (runs ++ [⟨r, u, result, changes⟩]) := by
  have lawful := disciplined.lawful enabled heading
  have obeyed (result : RunResult) (changes : List Audit.Change) : Obeyed given (runs ++ [⟨r, u, result, changes⟩]) :=
    disciplined.obeyed.append lawful
  cases concluded with
  | crashed fault => exact (disciplined.of_failure lawful rfl).faulted fault
  | failed => exact disciplined.of_failure lawful rfl
  | unwritten success output error message lost => exact disciplined.of_unwritten lawful heading lost
  | restored output error work written =>
    cases heading with
    | saving | installing | saved => cases work
    | restoring argv selected backed command =>
      refine ⟨disciplined.scripts, ?_, ?_, ?_, fun _ _ => rfl, obeyed _ _⟩
      · rw [ScriptRun.held_append]
        rfl
      · rw [ScriptRun.installed_append]
        rfl
      · simp [Whole.isUnwritable, notInstalled]
  | saved output error source artifact work written =>
    cases heading with
    | restoring | installing | saved => cases work
    | saving source artifact argv selected unsaved command =>
      refine ⟨disciplined.scripts, ?_, ?_, disciplined.writable, nofun, obeyed _ _⟩
      · rw [ScriptRun.held_append]
        rfl
      · rw [ScriptRun.installed_append]
        exact disciplined.installed
  | installed output error source artifact work written =>
    have writable := Pass.change_written work written
    have backed (install : r.call.role = .install) (saves : Saves given) : u.haveBackup = true :=
      disciplined.backup.trans (lawful.install install saves)
    cases heading with
    | restoring | saving => cases work
    | installing | saved =>
      cases work
      refine ⟨disciplined.scripts, ?_, ?_, writable, fun saves unsaved => ?_, obeyed _ _⟩
      · rw [ScriptRun.held_append]
        exact disciplined.backup
      · rw [ScriptRun.installed_append]
        rfl
      · rw [backed rfl saves] at unsaved
        cases unsaved

theorem planned (disciplined : Disciplined given u runs) {builders : Artifact.Builders} {table : LeaseTable}
    {next : Next} (planned : Pass.Planned builders table u next u') : Disciplined given u' runs := by
  cases planned with
  | unbuilt source fault => exact disciplined.faulted fault
  | standing | bare | restoring | saving | installing => exact disciplined

theorem lasting (scripts : PerKind (Option Scripts)) :
    Lasting fun kind u runs => Disciplined (scripts.get kind) u runs where
  sources _ disciplined := { disciplined with }
  planned disciplined _ planned := disciplined.planned planned
  concluded disciplined enabled heading concluded := disciplined.concluded enabled heading concluded

theorem blank (given : Option Scripts) (kind : Kind) : Disciplined given (.blank kind) [] where
  scripts := nofun
  backup := rfl
  installed := rfl
  writable := by simp [Whole.isUnwritable, Updater.blank, notInstalled]
  safe _ _ := rfl
  obeyed before run after split := by cases before <;> cases split

theorem configured (given : Option Scripts) (kind : Kind) (builders : Artifact.Builders) :
    Disciplined given (Registry.configureKind builders (.blank kind) given).1 [] := by
  have blank := blank given kind
  unfold Registry.configureKind
  cases given with
  | none => exact blank
  | some s =>
    simp only
    split
    next => exact blank
    next =>
      split
      next => exact { blank with scripts := fun _ => ⟨s, rfl, rfl⟩ }
      next => exact { blank with scripts := nofun }

end Disciplined

namespace Engine

theorem run_kinds_disciplined (scripts : PerKind (Option Scripts)) (builders : Artifact.Builders) (moves : List Move) :
    ((initial scripts builders).run moves).1.Orderly ∧
    ∀ kind, Disciplined (scripts.get kind) (((initial scripts builders).run moves).1.registry.updater kind)
      (ScriptRun.ofKind kind ((initial scripts builders).run moves).2) := by
  have upholds : (initial scripts builders).registry.Upholds []
      fun kind u runs => Disciplined (scripts.get kind) u runs :=
    initial_upholds (fun _ => .blank _ _) fun _ _ => .configured _ _ _
  obtain ⟨orderly, kept⟩ := run_keeps (Disciplined.lasting scripts) moves (initial_orderly scripts builders) upholds
  exact ⟨orderly, kept.now⟩

theorem lasting_disabled (kind : Kind) :
    Lasting fun other u runs => other = kind → u.enabled = false ∧ runs = [] where
  sources _ holds same := holds same
  planned holds enabled _ same := absurd enabled (by simp [(holds same).1])
  concluded holds enabled _ _ same := absurd enabled (by simp [(holds same).1])

/-- A kind that is out of service once it is configured stays so, and none of its scripts runs. -/
theorem disabled_stays {e : Engine} {kind : Kind} (orderly : e.Orderly) (configured : e.registry.configured = true)
    (disabled : (e.registry.updater kind).enabled = false) (moves : List Move) :
    ((e.run moves).1.registry.updater kind).enabled = false ∧ ScriptRun.ofKind kind (e.run moves).2 = [] := by
  have upholds : e.registry.Upholds [] fun other u runs => other = kind → u.enabled = false ∧ runs = [] := by
    refine ⟨?_, fun fresh => ?_⟩
    · rintro other rfl
      exact ⟨disabled, rfl⟩
    · rw [configured] at fresh
      cases fresh
  exact (run_keeps (lasting_disabled kind) moves orderly upholds).2.now kind rfl

/-- Whatever leases come and go, whatever becomes of scripts, and whichever builders are there: every script runs
lawfully, a kind that was taken out of service stays out of it, no backup is taken over what was installed,
and what is installed can be undone wherever there are scripts for that. -/
theorem run_backups_disciplined (scripts : PerKind (Option Scripts)) (builders : Artifact.Builders)
    (moves : List Move) :
    let e := ((initial scripts builders).run moves).1
    let runs := ((initial scripts builders).run moves).2
    (∀ running u, e.underway? = some (running, u) →
      Lawful (scripts.get running.call.kind) (ScriptRun.ofKind running.call.kind runs) running u) ∧
    ∀ kind, Obeyed (scripts.get kind) (ScriptRun.ofKind kind runs) ∧ OriginalsKept (ScriptRun.ofKind kind runs) ∧
      (e.registry.configured = true → (e.registry.updater kind).enabled = false → ∀ later,
        ((e.run later).1.registry.updater kind).enabled = false ∧ ScriptRun.ofKind kind (e.run later).2 = []) ∧
      (Saves (scripts.get kind) → (e.registry.updater kind).installedSeqno ≠ notInstalled →
        (e.registry.updater kind).haveBackup = true) := by
  intro e runs
  obtain ⟨orderly, kinds⟩ := run_kinds_disciplined scripts builders moves
  refine ⟨fun running u underway => ?_, fun kind => ⟨(kinds kind).obeyed, (kinds kind).obeyed.originalsKept,
    fun configured disabled later => disabled_stays orderly configured disabled later, fun saves installed => ?_⟩⟩
  · obtain ⟨enabled, base, before, heading⟩ := orderly.heading underway
    obtain ⟨rfl, -⟩ := underway?_some underway
    exact (kinds running.call.kind).lawful enabled heading
  · cases backed : (e.registry.updater kind).haveBackup with
    | true => rfl
    | false => exact absurd ((kinds kind).safe saves backed) installed

/-- An installation fails, is tried again over the backup that is held, and is undone when the lease is gone. Where
the installation turns out to be unsupported instead, no script runs after it. -/
theorem saved_and_restored_once :
    let scripts : PerKind (Option Scripts) :=
      ⟨some ⟨some ["set"], some ["save"], some ["undo"], none⟩, none, none, none⟩
    let lease : Lease := { Lease.blank .dhcp with seqno := 1, hostname := some "a" }
    let store : Store := ⟨[lease], [⟨.str "eth0", 1, [0]⟩], 1⟩
    let empty : Store := ⟨[lease], [⟨.str "eth0", 1, []⟩], 1⟩
    let moves := pass store [.ended true "" none, .ended false "" (some "busy")] ++ pass store [.ended true "" none] ++
      pass empty [.ended true "" none]
    let runs := ScriptRun.ofKind .hostname ((initial scripts .standard).run moves).2
    let unsupported := pass store [.ended true "" none, .crashed (.unsupported "no")]
    let halted := ((initial scripts .standard).run unsupported).1
    (runs.map ScriptRun.role = [.backup, .install, .install, .restore] ∧ OriginalsKept runs) ∧
      (halted.registry.updater .hostname).haveBackup = true ∧
      ScriptRun.ofKind .hostname (halted.run (pass empty [])).2 = [] := by
  intro scripts lease store empty moves runs unsupported halted
  have kept := ((run_backups_disciplined scripts .standard moves).2 .hostname).2.1
  have stopped := ((run_backups_disciplined scripts .standard unsupported).2 .hostname).2.2.1
    (by decide +kernel) (by decide +kernel) (pass empty [])
  exact ⟨⟨by decide +kernel, kept⟩, by decide +kernel, stopped.2⟩

end Engine
end Leasehold
