import Leasehold.Reconciliation.Pass

/-! The turns of a pass. What is planned for a kind and what follows the end of its script is one of a few
things, which are listed here once; a kind's turn is a chain of them, and a pass deals with the kinds turn by
turn. Everything that is proved of script runs is proved of these lists. -/

namespace Leasehold

def KindOutcome.ran (o : KindOutcome) (role : Role) : KindOutcome :=
  { o with scriptsRun := o.scriptsRun ++ [role] }

def KindOutcome.intending (u : Updater) (intent : Intent) : KindOutcome :=
  { KindOutcome.untouched u with intent := intent }

/-- A script run that has ended: what was called for, the kind's state while it ran, how it ended, and what
the audit trail has of it. -/
structure ScriptRun where
  running : Running
  updater : Updater
  result : RunResult
  changes : List Audit.Change

namespace ScriptRun

def kind (run : ScriptRun) : Kind := run.running.call.kind

def role (run : ScriptRun) : Role := run.running.call.role

def succeeded (run : ScriptRun) : Bool :=
  match run.result with
  | .ended success _ _ => success
  | .crashed _ => false

/-- A pass counts on a script that succeeded only when that is on record. -/
def effective (run : ScriptRun) : Bool :=
  run.succeeded && !run.changes.isEmpty

def ofKind (kind : Kind) (runs : List ScriptRun) : List ScriptRun :=
  runs.filter fun run => run.kind = kind

theorem ofKind_append_self (runs : List ScriptRun) (r : Running) (u : Updater) (result : RunResult)
    (changes : List Audit.Change) : ofKind r.call.kind (runs ++ [⟨r, u, result, changes⟩]) =
      ofKind r.call.kind runs ++ [⟨r, u, result, changes⟩] := by
  simp [ofKind, kind]

theorem ofKind_append_other {kind : Kind} (runs : List ScriptRun) {run : ScriptRun} (different : run.kind ≠ kind) :
    ofKind kind (runs ++ [run]) = ofKind kind runs := by
  simp [ofKind, different]

end ScriptRun

def Next.Concerns (kind : Kind) : Next → Prop
  | .done o => o.kind = kind
  | .run r => r.call.kind = kind ∧ r.outcome.kind = kind

namespace Pass

/-- What may be planned for a kind in service: what comes next, and the kind's state afterwards. -/
inductive Planned (builders : Artifact.Builders) (table : LeaseTable) (u : Updater) : Next → Updater → Prop
  | standing (source : Source) (selected : u.selectSource = some source)
      (same : source.seqno = u.installedSeqno) : Planned builders table u (.done (.untouched u)) u
  | bare (selected : u.selectSource = none) (nothing : u.haveBackup = true → u.command? .restore = none) :
      Planned builders table u (.done (.untouched u)) u
  | restoring (argv : List String) (selected : u.selectSource = none) (backed : u.haveBackup = true)
      (command : u.command? .restore = some argv) :
      Planned builders table u (.run ⟨u.call .restore argv none, .restore, .intending u .restore⟩) u
  | saving (source : Source) (artifact : String) (argv : List String) (selected : u.selectSource = some source)
      (differs : source.seqno ≠ u.installedSeqno)
      (built : builders.build u.kind (source.content table) = .ok artifact) (unsaved : u.haveBackup = false)
      (command : u.command? .backup = some argv) :
      Planned builders table u
        (.run ⟨u.call .backup argv none, .backup source artifact, .intending u .install⟩) u
  | installing (source : Source) (artifact : String) (selected : u.selectSource = some source)
      (differs : source.seqno ≠ u.installedSeqno)
      (built : builders.build u.kind (source.content table) = .ok artifact)
      (safe : u.haveBackup = false → u.command? .backup = none) :
      Planned builders table u (.run (Pass.installing u source artifact (.intending u .install))) u
  | unbuilt (source : Source) (fault : ApplyFault) (selected : u.selectSource = some source)
      (differs : source.seqno ≠ u.installedSeqno)
      (broken : builders.build u.kind (source.content table) = .error fault) :
      Planned builders table u (.done ((KindOutcome.intending u .install).failed fault.message)) (u.afterFault fault)

theorem planRestore_planned (builders : Artifact.Builders) (table : LeaseTable) (u : Updater)
    (selected : u.selectSource = none) : Planned builders table u (planRestore u) u := by
  unfold planRestore
  simp only
  split
  next argv backed command => exact .restoring argv selected backed command
  next unplanned =>
    refine .bare selected fun backed => ?_
    cases command : u.command? .restore with
    | none => rfl
    | some argv => exact absurd command (unplanned argv backed)

theorem preparing_planned {builders : Artifact.Builders} {table : LeaseTable} {u : Updater} {source : Source}
    {artifact : String} (selected : u.selectSource = some source) (differs : source.seqno ≠ u.installedSeqno)
    (built : builders.build u.kind (source.content table) = .ok artifact) :
    Planned builders table u (.run (preparing u source artifact (.intending u .install))) u := by
  unfold preparing
  split
  next argv unsaved command => exact .saving source artifact argv selected differs built unsaved command
  next unprepared =>
    refine .installing source artifact selected differs built fun unsaved => ?_
    cases command : u.command? .backup with
    | none => rfl
    | some argv => exact absurd command (unprepared argv unsaved)

theorem plan_planned (builders : Artifact.Builders) (table : LeaseTable) (u : Updater) :
    Planned builders table u (plan builders table u).1 (plan builders table u).2.1 := by
  unfold plan
  split
  next selected => exact planRestore_planned builders table u selected
  next source selected =>
    split
    next same => exact .standing source selected same
    next differs =>
      unfold planInstall
      simp only
      split
      next artifact built => exact preparing_planned selected differs built
      next fault broken => exact .unbuilt source fault selected differs broken

/-- What may follow a script's end: the audit records, what comes next, and the kind's state afterwards. -/
inductive Concluded (table : LeaseTable) (origins : List (Int × Scalar)) (u : Updater) (r : Running) :
    RunResult → List Audit.Change → Next → Updater → Prop
  | crashed (fault : ApplyFault) :
      Concluded table origins u r (.crashed fault) [] (.done (r.outcome.failed fault.message)) (u.afterFault fault)
  | unwritten (success : Bool) (output : String) (error : Option String) (message : String)
      (lost : (change table origins u r success output error).unwritable? = some message) :
      Concluded table origins u r (.ended success output error) []
        (.done ((r.outcome.ran r.call.role).failed message)) u
  | failed (output : String) (error : Option String)
      (written : (change table origins u r false output error).unwritable? = none) :
      Concluded table origins u r (.ended false output error) [change table origins u r false output error]
        (.done ((r.outcome.ran r.call.role).failed (failure u.kind r.work error))) u
  | restored (output : String) (error : Option String) (work : r.work = .restore)
      (written : (change table origins u r true output error).unwritable? = none) :
      Concluded table origins u r (.ended true output error) [change table origins u r true output error]
        (.done { r.outcome.ran r.call.role with seqno := notInstalled })
        { u with haveBackup := false, installedSeqno := notInstalled }
  | saved (output : String) (error : Option String) (source : Source) (artifact : String)
      (work : r.work = .backup source artifact)
      (written : (change table origins u r true output error).unwritable? = none) :
      Concluded table origins u r (.ended true output error) [change table origins u r true output error]
        (.run (Pass.installing { u with haveBackup := true } source artifact (r.outcome.ran r.call.role)))
        { u with haveBackup := true }
  | installed (output : String) (error : Option String) (source : Source) (artifact : String)
      (work : r.work = .install source artifact)
      (written : (change table origins u r true output error).unwritable? = none) :
      Concluded table origins u r (.ended true output error) [change table origins u r true output error]
        (.done { r.outcome.ran r.call.role with seqno := source.seqno })
        { u with installedSeqno := source.seqno }

theorem conclude_concluded (table : LeaseTable) (origins : List (Int × Scalar)) (u : Updater) (r : Running)
    (result : RunResult) :
    Concluded table origins u r result (conclude table origins u r result).2.2.1
      (conclude table origins u r result).1 (conclude table origins u r result).2.1 := by
  unfold conclude
  split
  next fault => exact .crashed fault
  next success output error =>
    simp only
    split
    next message lost => exact .unwritten success output error message lost
    next written =>
      cases success with
      | false => exact .failed output error written
      | true =>
        simp only [if_true, succeed]
        split
        next work => exact .restored output error work written
        next source artifact work => exact .saved output error source artifact work written
        next source artifact work => exact .installed output error source artifact work written

/-- How far a kind's turn has come from the state in which it began: the script runs so far, the kind's state
now, and what comes next. -/
inductive Reached (origins : List (Int × Scalar)) (base : Updater) : List ScriptRun → Updater → Next → Prop
  | planned {builders : Artifact.Builders} {table : LeaseTable} {next : Next} {u : Updater}
      (planned : Planned builders table base next u) : Reached origins base [] u next
  | concluded {table : LeaseTable} {runs : List ScriptRun} {u u' : Updater} {r : Running} {result : RunResult}
      {changes : List Audit.Change} {next : Next} (before : Reached origins base runs u (.run r))
      (concluded : Concluded table origins u r result changes next u') :
      Reached origins base (runs ++ [⟨r, u, result, changes⟩]) u' next

variable {builders : Artifact.Builders} {table : LeaseTable} {origins : List (Int × Scalar)}
  {base u u' : Updater} {r : Running} {result : RunResult} {changes : List Audit.Change} {next : Next}
  {runs : List ScriptRun}

/-- A fault can take a kind out of service, and does nothing else to it. -/
theorem afterFault_rest (u : Updater) (fault : ApplyFault) :
    (u.afterFault fault).kind = u.kind ∧ (u.afterFault fault).sources = u.sources ∧
      (u.afterFault fault).installedSeqno = u.installedSeqno ∧ (u.afterFault fault).haveBackup = u.haveBackup := by
  cases fault <;> exact ⟨rfl, rfl, rfl, rfl⟩

theorem Planned.kind (planned : Planned builders table u next u') : u'.kind = u.kind ∧ next.Concerns u.kind := by
  cases planned with
  | standing | bare => exact ⟨rfl, rfl⟩
  | unbuilt source fault => exact ⟨(afterFault_rest u fault).1, rfl⟩
  | restoring | saving | installing => exact ⟨rfl, rfl, rfl⟩

theorem Concluded.kind (concluded : Concluded table origins u r result changes next u')
    (outcome : r.outcome.kind = u.kind) : u'.kind = u.kind ∧ next.Concerns u.kind := by
  cases concluded with
  | crashed fault => exact ⟨(afterFault_rest u fault).1, outcome⟩
  | unwritten | failed | restored | installed => exact ⟨rfl, outcome⟩
  | saved => exact ⟨rfl, rfl, outcome⟩

theorem Reached.kind (reached : Reached origins base runs u next) : u.kind = base.kind ∧ next.Concerns base.kind := by
  induction reached with
  | planned planned => exact planned.kind
  | concluded before concluded ih =>
    obtain ⟨same, -, outcome⟩ := ih
    obtain ⟨kept, concerns⟩ := concluded.kind (outcome.trans same.symm)
    exact ⟨kept.trans same, same ▸ concerns⟩

theorem Planned.sources (planned : Planned builders table u next u') : u'.sources = u.sources := by
  cases planned with
  | unbuilt source fault => exact (afterFault_rest u fault).2.1
  | standing | bare | restoring | saving | installing => rfl

theorem Concluded.sources (concluded : Concluded table origins u r result changes next u') :
    u'.sources = u.sources := by
  cases concluded with
  | crashed fault => exact (afterFault_rest u fault).2.1
  | unwritten | failed | restored | saved | installed => rfl

theorem Reached.sources (reached : Reached origins base runs u next) : u.sources = base.sources := by
  induction reached with
  | planned planned => exact planned.sources
  | concluded before concluded ih => exact concluded.sources.trans ih

/-- The script of a kind that runs in the middle of its turn: the runs before it, and the kind's state. -/
inductive Heading (base : Updater) : List ScriptRun → Updater → Running → Prop
  | restoring (argv : List String) (selected : base.selectSource = none) (backed : base.haveBackup = true)
      (command : base.command? .restore = some argv) :
      Heading base [] base ⟨base.call .restore argv none, .restore, .intending base .restore⟩
  | saving (source : Source) (artifact : String) (argv : List String) (selected : base.selectSource = some source)
      (unsaved : base.haveBackup = false) (command : base.command? .backup = some argv) :
      Heading base [] base ⟨base.call .backup argv none, .backup source artifact, .intending base .install⟩
  | installing (source : Source) (artifact : String) (selected : base.selectSource = some source)
      (safe : base.haveBackup = false → base.command? .backup = none) :
      Heading base [] base (Pass.installing base source artifact (.intending base .install))
  | saved (run : ScriptRun) (source : Source) (artifact : String) (selected : base.selectSource = some source)
      (unsaved : base.haveBackup = false) (role : run.role = .backup) (effective : run.effective = true) :
      Heading base [run] { base with haveBackup := true }
        (Pass.installing { base with haveBackup := true } source artifact
          ((KindOutcome.intending base .install).ran .backup))

theorem Heading.kind {before : List ScriptRun} (heading : Heading base before u r) : r.call.kind = u.kind := by
  cases heading <;> rfl

theorem Heading.outcome {before : List ScriptRun} (heading : Heading base before u r) : r.outcome.kind = u.kind := by
  cases heading <;> rfl

theorem Reached.heading (reached : Reached origins base runs u next) : ∀ r, next = .run r →
    Heading base runs u r := by
  induction reached with
  | planned planned =>
    rintro r rfl
    cases planned with
    | restoring argv selected backed command => exact .restoring argv selected backed command
    | saving source artifact argv selected differs built unsaved command =>
      exact .saving source artifact argv selected unsaved command
    | installing source artifact selected differs built safe => exact .installing source artifact selected safe
  | @concluded table runs u u' running result changes next before concluded ih =>
    rintro r rfl
    have heading := ih running rfl
    -- Only a backup is followed by another script, and it is the first of its turn.
    cases concluded with
    | saved output error source artifact work written =>
      cases heading with
      | restoring | installing | saved => cases work
      | saving source argv artifact selected unsaved command =>
        cases work
        exact .saved _ _ _ selected unsaved rfl rfl

/-- How a pass deals with kinds: in their order, passing over those out of service, until a script has to run. -/
inductive Advanced (table : LeaseTable) (origins : List (Int × Scalar)) :
    List Kind → Registry → List KindOutcome → Registry → Pass → Prop
  | finished (r : Registry) (outcomes : List KindOutcome) :
      Advanced table origins [] r outcomes r ⟨origins, outcomes, none⟩
  | skipped {kind : Kind} {rest : List Kind} {r r' : Registry} {outcomes : List KindOutcome} {p : Pass}
      (disabled : (r.updater kind).pruneSources.enabled = false)
      (later : Advanced table origins rest (r.modify kind fun _ => (r.updater kind).pruneSources) outcomes r' p) :
      Advanced table origins (kind :: rest) r outcomes r' p
  | done {kind : Kind} {rest : List Kind} {r r' : Registry} {outcomes : List KindOutcome} {p : Pass}
      {o : KindOutcome} {u : Updater} (enabled : (r.updater kind).pruneSources.enabled = true)
      (planned : Planned r.builders table (r.updater kind).pruneSources (.done o) u)
      (later : Advanced table origins rest (r.modify kind fun _ => u) (outcomes ++ [o]) r' p) :
      Advanced table origins (kind :: rest) r outcomes r' p
  | stopped {kind : Kind} (rest : List Kind) {r : Registry} (outcomes : List KindOutcome) {running : Running}
      {u : Updater} (enabled : (r.updater kind).pruneSources.enabled = true)
      (planned : Planned r.builders table (r.updater kind).pruneSources (.run running) u) :
      Advanced table origins (kind :: rest) r outcomes (r.modify kind fun _ => u)
        ⟨origins, outcomes, some (running, rest)⟩

theorem advance_advanced (table : LeaseTable) (origins : List (Int × Scalar)) (kinds : List Kind) (r : Registry)
    (outcomes : List KindOutcome) :
    Advanced table origins kinds r outcomes (advance table origins kinds r outcomes).registry
      (advance table origins kinds r outcomes).pass ∧
    (advance table origins kinds r outcomes).changes = [] := by
  induction kinds generalizing r outcomes with
  | nil => exact ⟨.finished r outcomes, rfl⟩
  | cons kind rest ih =>
    unfold advance
    simp only
    split
    next enabled =>
      have planned := plan_planned r.builders table (r.updater kind).pruneSources
      generalize plan r.builders table (r.updater kind).pruneSources = made at planned ⊢
      obtain ⟨next, u, log⟩ := made
      cases next with
      | done o =>
        obtain ⟨later, silent⟩ := ih (r.modify kind fun _ => u) (outcomes ++ [o])
        exact ⟨.done enabled planned later, silent⟩
      | run running => exact ⟨.stopped rest outcomes enabled planned, rfl⟩
    next disabled =>
      obtain ⟨later, silent⟩ := ih (r.modify kind fun _ => (r.updater kind).pruneSources) outcomes
      exact ⟨.skipped (Bool.not_eq_true _ ▸ disabled) later, silent⟩

/-- How a pass goes on: the end of its script is followed by another script of the kind, or by the kinds that
come afterwards. -/
inductive Resumed (table : LeaseTable) (origins : List (Int × Scalar)) (running : Running) (rest : List Kind)
    (outcomes : List KindOutcome) (r : Registry) (result : RunResult) (changes : List Audit.Change) :
    Registry → Pass → Prop
  | again {running' : Running} {u : Updater}
      (concluded : Concluded table origins (r.updater running.call.kind) running result changes (.run running') u) :
      Resumed table origins running rest outcomes r result changes (r.modify running.call.kind fun _ => u)
        ⟨origins, outcomes, some (running', rest)⟩
  | on {o : KindOutcome} {u : Updater} {r' : Registry} {p : Pass}
      (concluded : Concluded table origins (r.updater running.call.kind) running result changes (.done o) u)
      (later : Advanced table origins rest (r.modify running.call.kind fun _ => u) (outcomes ++ [o]) r' p) :
      Resumed table origins running rest outcomes r result changes r' p

theorem resume_resumed {p : Pass} {rest : List Kind} (waiting : p.waiting = some (r, rest)) (table : LeaseTable)
    (registry : Registry) (result : RunResult) :
    Resumed table p.origins r rest p.outcomes registry result (p.resume table registry result).changes
      (p.resume table registry result).registry (p.resume table registry result).pass := by
  have concluded := conclude_concluded table p.origins (registry.updater r.call.kind) r result
  simp only [resume, waiting]
  generalize conclude table p.origins (registry.updater r.call.kind) r result = made at concluded ⊢
  obtain ⟨next, u, changes, log⟩ := made
  cases next with
  | run running' => exact .again concluded
  | done o =>
    obtain ⟨later, silent⟩ := advance_advanced table p.origins rest (registry.modify r.call.kind fun _ => u)
      (p.outcomes ++ [o])
    simp only [Stretch.after, silent, List.append_nil]
    exact .on concluded later

end Pass
end Leasehold
