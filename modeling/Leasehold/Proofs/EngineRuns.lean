import Leasehold.Proofs.HostMoves
import Leasehold.Proofs.PassAccounts

/-! Runs of the engine. Whatever leases a pass finds, whatever becomes of its scripts, and whoever asks for
passes, a kind has its turns one after the other; what every turn keeps is kept by every run. -/

namespace Leasehold

namespace Engine

/-- What can happen to an engine: the kinds are configured, other builders are put in, an event is noticed, a
pass is scheduled, the task goes on, someone asks for a pass, a pass begins, a script ends, and a pass ends. -/
inductive Move
  | configure
  | rebuild (builders : Artifact.Builders)
  | notice (event : Event)
  | schedule
  | wake
  | request (name : Nat)
  | begin (store : Store)
  | resume (table : LeaseTable) (result : RunResult)
  | complete

def ended (e : Engine) (result : RunResult) (changes : List Audit.Change) : List ScriptRun :=
  match e.current with
  | none => []
  | some (_, pass) => pass.ended e.registry result changes

def underway? (e : Engine) : Option (Running × Updater) := do
  let (_, pass) ← e.current
  let (running, _) ← pass.waiting
  return (running, e.registry.updater running.call.kind)

/-- A move: the engine afterwards, and the script run that ended with it. -/
def step (e : Engine) : Move → Engine × List ScriptRun
  | .configure => ({ e with registry := e.registry.configure.1 }, [])
  | .rebuild builders => ({ e with registry := { e.registry with builders := builders } }, [])
  | .notice event => (e.notice event, [])
  | .schedule => (e.schedule, [])
  | .wake => (e.wake, [])
  | .request name => (e.request name, [])
  | .begin store => ((e.begin store).engine, [])
  | .resume table result => ((e.resume table result).engine, e.ended result (e.resume table result).changes)
  | .complete =>
    match e.complete? with
    | some (_, _, engine) => (engine, [])
    | none => (e, [])

/-- Moves one after the other: the engine afterwards, and the script runs in the order in which they ended. -/
def run (e : Engine) : List Move → Engine × List ScriptRun
  | [] => (e, [])
  | m :: rest => ((run (e.step m).1 rest).1, (e.step m).2 ++ (run (e.step m).1 rest).2)

/-- A caller's pass over the leases of a store, from its request to the last of its scripts. -/
def pass (store : Store) (results : List RunResult) : List Move :=
  [.complete, .request 0, .begin store] ++ results.map (.resume store.table)

theorem run_append (e : Engine) (first last : List Move) :
    e.run (first ++ last) = (((e.run first).1.run last).1, (e.run first).2 ++ ((e.run first).1.run last).2) := by
  induction first generalizing e with
  | nil => rfl
  | cons m rest ih => simp [run, ih]

inductive Moved (e : Engine) : Engine → List ScriptRun → Prop
  | idle {next : Engine} (registry : next.registry = e.registry)
      (current : next.current = e.current ∨ next.current = none) : Moved e next []
  | configured : Moved e { e with registry := e.registry.configure.1 } []
  | rebuilt (builders : Artifact.Builders) :
      Moved e { e with registry := { e.registry with builders := builders } } []
  | begun {next : Engine} (free : e.current = none) (who : Requester) (store : Store)
      (registry : next.registry = (Pass.start store e.registry).registry)
      (current : next.current = some (who, (Pass.start store e.registry).pass)) : Moved e next []
  | resumed {next : Engine} {who : Requester} {pass : Pass} (before : e.current = some (who, pass))
      (table : LeaseTable) (result : RunResult)
      (registry : next.registry = (pass.resume table e.registry result).registry)
      (current : next.current = some (who, (pass.resume table e.registry result).pass)) :
      Moved e next (pass.ended e.registry result (pass.resume table e.registry result).changes)

theorem proceed_moved (e : Engine) (last : Option PassResult) :
    (e.proceed last).registry = e.registry ∧ (e.proceed last).current = e.current := by
  unfold proceed
  split <;> exact ⟨rfl, rfl⟩

theorem step_moved (e : Engine) (m : Move) : e.Moved (e.step m).1 (e.step m).2 := by
  cases m with
  | configure => exact .configured
  | rebuild builders => exact .rebuilt builders
  | schedule | request name => exact .idle rfl (Or.inl rfl)
  | notice event =>
    have kept : (e.notice event).registry = e.registry ∧ (e.notice event).current = e.current := by
      unfold notice
      split <;> exact ⟨rfl, rfl⟩
    exact .idle kept.1 (Or.inl kept.2)
  | wake =>
    simp only [step, wake]
    split
    next => exact .idle (e.proceed_moved none).1 (Or.inl (e.proceed_moved none).2)
    next => exact .idle rfl (Or.inl rfl)
  | begin store =>
    simp only [step, begin]
    split
    next who rest free line => exact .begun free who store rfl rfl
    next => exact .idle rfl (Or.inl rfl)
  | resume table result =>
    match current : e.current with
    | none =>
      simp only [step, resume, ended, current]
      exact .idle rfl (Or.inl rfl)
    | some (who, pass) =>
      simp only [step, resume, ended, current]
      exact .resumed current table result rfl rfl
  | complete =>
    simp only [step]
    split
    next who result next completed =>
      obtain ⟨pass, -, -, -, ⟨-, rfl⟩ | ⟨-, rfl⟩⟩ := complete?_some completed
      · obtain ⟨registry, current⟩ := proceed_moved { e with current := none } (some result)
        exact .idle registry (Or.inr current)
      · exact .idle rfl (Or.inr rfl)
    next => exact .idle rfl (Or.inl rfl)

end Engine

namespace Registry

theorem configure_scripts (r : Registry) : r.configure.1.scripts = r.scripts := by
  unfold configure
  split <;> rfl

/-- A property of the kinds' histories, of their states and the runs of their scripts. -/
def Each (r : Registry) (runs : List ScriptRun) (holds : Kind → Updater → List ScriptRun → Prop) : Prop :=
  ∀ kind, holds kind (r.updater kind) (ScriptRun.ofKind kind runs)

/-- The property holds, and will when the kinds are configured, if they are not yet. -/
structure Upholds (r : Registry) (runs : List ScriptRun) (holds : Kind → Updater → List ScriptRun → Prop) : Prop where
  now : r.Each runs holds
  soon : r.configured = false → ∀ kind builders,
    holds kind (configureKind builders (r.updater kind) (r.scripts.get kind)).1 (ScriptRun.ofKind kind runs)

variable {r : Registry} {runs : List ScriptRun} {holds : Kind → Updater → List ScriptRun → Prop}

theorem Upholds.configure (upholds : r.Upholds runs holds) : r.configure.1.Upholds runs holds := by
  refine ⟨fun kind => ?_, fun fresh => ?_⟩
  · rw [configure_updater]
    split
    next => exact upholds.now kind
    next undone => exact upholds.soon (Bool.not_eq_true _ ▸ undone) kind r.builders
  · rw [configure_configured] at fresh
    cases fresh

end Registry

structure Lasting (holds : Kind → Updater → List ScriptRun → Prop) : Prop where
  sources {kind : Kind} {u : Updater} {runs : List ScriptRun} (sources : List Source) :
    holds kind u runs → holds kind { u with sources := sources } runs
  planned {kind : Kind} {u u' : Updater} {runs : List ScriptRun} {builders : Artifact.Builders} {table : LeaseTable}
    {next : Next} : holds kind u runs → u.enabled = true → Pass.Planned builders table u next u' → holds kind u' runs
  concluded {kind : Kind} {u u' base : Updater} {runs before : List ScriptRun} {table : LeaseTable}
    {origins : List (Int × Scalar)} {r : Running} {result : RunResult} {changes : List Audit.Change} {next : Next} :
    holds kind u runs → u.enabled = true → Pass.Heading base before u r →
      Pass.Concluded table origins u r result changes next u' → holds kind u' (runs ++ [⟨r, u, result, changes⟩])

namespace Pass

variable {table : LeaseTable} {origins : List (Int × Scalar)} {kinds rest : List Kind} {kind : Kind}
  {r r' : Registry} {outcomes : List KindOutcome} {p : Pass} {base u : Updater} {runs before : List ScriptRun}
  {running : Running} {result : RunResult} {changes : List Audit.Change}
  {holds : Kind → Updater → List ScriptRun → Prop}

theorem Heading.enabled (heading : Heading base before u running) : u.enabled = base.enabled := by
  cases heading <;> rfl

private theorem each_modify (each : r.Each runs holds) (one : holds kind u (ScriptRun.ofKind kind runs)) :
    (r.modify kind fun _ => u).Each runs holds := by
  intro other
  rw [Registry.updater_modify]
  split
  next same => exact same ▸ one
  next => exact each other

theorem Advanced.settings (advanced : Advanced table origins kinds r outcomes r' p) :
    r'.configured = r.configured ∧ r'.scripts = r.scripts := by
  induction advanced with
  | finished | stopped => exact ⟨rfl, rfl⟩
  | skipped disabled later ih | done enabled planned later ih => exact ih

theorem Advanced.keeps (lasting : Lasting holds) (advanced : Advanced table origins kinds r outcomes r' p)
    (each : r.Each runs holds) : r'.Each runs holds := by
  have pruned {r : Registry} (each : r.Each runs holds) (kind : Kind) :
      holds kind (r.updater kind).pruneSources (ScriptRun.ofKind kind runs) := lasting.sources _ (each kind)
  induction advanced with
  | finished => exact each
  | skipped disabled later ih => exact ih (each_modify each (pruned each _))
  | done enabled planned later ih =>
    exact ih (each_modify each (lasting.planned (pruned each _) enabled planned))
  | stopped rest outcomes enabled planned =>
    exact each_modify each (lasting.planned (pruned each _) enabled planned)

theorem Resumed.settings (resumed : Resumed table origins running rest outcomes r result changes r' p) :
    r'.configured = r.configured ∧ r'.scripts = r.scripts := by
  cases resumed with
  | again concluded => exact ⟨rfl, rfl⟩
  | on concluded later => exact later.settings

private theorem each_ended (lasting : Lasting holds) {next : Next} (each : r.Each runs holds)
    (enabled : (r.updater running.call.kind).enabled = true)
    (heading : Heading base before (r.updater running.call.kind) running)
    (concluded : Concluded table origins (r.updater running.call.kind) running result changes next u) :
    (r.modify running.call.kind fun _ => u).Each
      (runs ++ [⟨running, r.updater running.call.kind, result, changes⟩]) holds := by
  intro other
  rw [Registry.updater_modify]
  split
  next same =>
    subst same
    rw [ScriptRun.ofKind_append_self]
    exact lasting.concluded (each _) enabled heading concluded
  next different =>
    rw [ScriptRun.ofKind_append_other runs (Ne.symm different)]
    exact each other

theorem Resumed.keeps (lasting : Lasting holds)
    (resumed : Resumed table origins running rest outcomes r result changes r' p) (each : r.Each runs holds)
    (enabled : (r.updater running.call.kind).enabled = true)
    (heading : Heading base before (r.updater running.call.kind) running) :
    r'.Each (runs ++ [⟨running, r.updater running.call.kind, result, changes⟩]) holds := by
  cases resumed with
  | again concluded => exact each_ended lasting each enabled heading concluded
  | on concluded later => exact later.keeps lasting (each_ended lasting each enabled heading concluded)

theorem start_settings (store : Store) (r : Registry) :
    (start store r).registry.configured = true ∧ (start store r).registry.scripts = r.scripts := by
  have settings := (advance_advanced store.table (originsOf store) Kind.all
    (r.configure.1.modifyAll fun u => u.collect store) []).1.settings
  exact ⟨settings.1.trans r.configure_configured, settings.2.trans r.configure_scripts⟩

theorem start_keeps (lasting : Lasting holds) (store : Store) (upholds : r.Upholds runs holds) :
    (start store r).registry.Each runs holds := by
  refine (advance_advanced store.table (originsOf store) Kind.all
    (r.configure.1.modifyAll fun u => u.collect store) []).1.keeps lasting fun kind => ?_
  rw [Registry.updater_modifyAll, Updater.collect_rest]
  exact lasting.sources _ (upholds.configure.now kind)

end Pass

namespace Engine

/-- The engine as it is found between its moves: every kind has a state of its own, and the pass under way its
account. -/
structure Orderly (e : Engine) : Prop where
  label : ∀ kind, (e.registry.updater kind).kind = kind
  begun : e.current.isSome → e.registry.configured = true
  accounts : ∀ who pass, e.current = some (who, pass) → ∃ base runs, pass.Accounts base runs e.registry

variable {e : Engine} {runs : List ScriptRun} {holds : Kind → Updater → List ScriptRun → Prop}

theorem underway?_some {running : Running} {u : Updater} (underway : e.underway? = some (running, u)) :
    u = e.registry.updater running.call.kind ∧
      ∃ who pass rest, e.current = some (who, pass) ∧ pass.waiting = some (running, rest) := by
  unfold underway? at underway
  match current : e.current with
  | none => simp [current] at underway
  | some (who, pass) =>
    match waiting : pass.waiting with
    | none => simp [current, waiting] at underway
    | some (script, rest) =>
      simp only [current, waiting, Option.bind_eq_bind, Option.bind_some, Option.pure_def, Option.some.injEq,
        Prod.mk.injEq] at underway
      obtain ⟨rfl, rfl⟩ := underway
      exact ⟨rfl, who, pass, rest, rfl, waiting⟩

/-- The script that runs is that of a kind in service, in the middle of its turn. -/
theorem Orderly.heading (orderly : e.Orderly) {running : Running} {u : Updater}
    (underway : e.underway? = some (running, u)) :
    u.enabled = true ∧ ∃ base before, Pass.Heading base before u running := by
  obtain ⟨rfl, who, pass, rest, current, waiting⟩ := underway?_some underway
  obtain ⟨base, before, accounts⟩ := orderly.accounts who pass current
  obtain ⟨enabled, heading⟩ := accounts.heading waiting
  exact ⟨heading.enabled.trans enabled, _, _, heading⟩

theorem Moved.keeps {next : Engine} {ended : List ScriptRun} (moved : e.Moved next ended) (orderly : e.Orderly)
    (lasting : Lasting holds) (upholds : e.registry.Upholds runs holds) :
    next.registry.Upholds (runs ++ ended) holds := by
  cases moved with
  | idle registry current =>
    rw [registry, List.append_nil]
    exact upholds
  | configured =>
    rw [List.append_nil]
    exact upholds.configure
  | rebuilt builders =>
    rw [List.append_nil]
    exact ⟨upholds.now, upholds.soon⟩
  | begun free who store registry current =>
    rw [registry, List.append_nil]
    refine ⟨Pass.start_keeps lasting store upholds, fun fresh => ?_⟩
    rw [(Pass.start_settings store e.registry).1] at fresh
    cases fresh
  | @resumed next who pass before table result registry current =>
    rw [registry]
    have configured : e.registry.configured = true := orderly.begun (by rw [before]; rfl)
    match waiting : pass.waiting with
    -- A pass that waits for no script stays as it is, and no run has ended.
    | none => simpa [Pass.resume, Pass.ended, waiting] using upholds
    | some (running, rest) =>
      have resumed := Pass.resume_resumed waiting table e.registry result
      have underway : e.underway? = some (running, e.registry.updater running.call.kind) := by
        simp [underway?, before, waiting]
      obtain ⟨enabled, base, earlier, heading⟩ := orderly.heading underway
      simp only [Pass.ended, waiting]
      refine ⟨resumed.keeps lasting upholds.now enabled heading, fun fresh => ?_⟩
      rw [resumed.settings.1, configured] at fresh
      cases fresh

theorem lasting_label : Lasting fun kind u _ => u.kind = kind where
  sources _ label := label
  planned label _ planned := planned.kind.1.trans label
  concluded label _ heading concluded := (concluded.kind heading.outcome).1.trans label

theorem Moved.orderly {next : Engine} {ended : List ScriptRun} (moved : e.Moved next ended) (orderly : e.Orderly) :
    next.Orderly := by
  have upholds : e.registry.Upholds [] fun kind u _ => u.kind = kind :=
    ⟨orderly.label, fun _ kind builders => (Registry.configureKind_keeps builders _ _).1.trans (orderly.label kind)⟩
  have label (kind : Kind) : (next.registry.updater kind).kind = kind :=
    (moved.keeps orderly lasting_label upholds).now kind
  cases moved with
  | idle registry current =>
    obtain same | gone := current
    · exact ⟨label, by rw [registry, same]; exact orderly.begun, by rw [registry, same]; exact orderly.accounts⟩
    · exact ⟨label, by simp [gone], by simp [gone]⟩
  | configured =>
    refine ⟨label, fun _ => e.registry.configure_configured, fun who pass current => ?_⟩
    -- While a pass is under way the kinds are configured, and configuring them again changes nothing.
    have done := orderly.begun (by rw [show e.current = some (who, pass) from current]; rfl)
    rw [show e.registry.configure.1 = e.registry by simp [Registry.configure, done]]
    exact orderly.accounts who pass current
  | rebuilt builders =>
    refine ⟨label, orderly.begun, fun who pass current => ?_⟩
    obtain ⟨base, runs, accounts⟩ := orderly.accounts who pass current
    exact ⟨base, runs, accounts.rebuilt builders⟩
  | begun free who store registry current =>
    refine ⟨label, fun _ => by rw [registry, (Pass.start_settings store e.registry).1], fun who' pass same => ?_⟩
    rw [current, Option.some.injEq, Prod.mk.injEq] at same
    obtain ⟨-, rfl⟩ := same
    rw [registry]
    exact ⟨_, _, Pass.start_accounts store e.registry orderly.label⟩
  | @resumed next who pass before table result registry current =>
    obtain ⟨base, runs, accounts⟩ := orderly.accounts who pass before
    refine ⟨label, fun _ => ?_, fun who' pass' same => ?_⟩
    · have configured : e.registry.configured = true := orderly.begun (by rw [before]; rfl)
      rw [registry]
      match waiting : pass.waiting with
      | none => simpa [Pass.resume, waiting] using configured
      | some (running, rest) =>
        exact (Pass.resume_resumed waiting table e.registry result).settings.1.trans configured
    · rw [current, Option.some.injEq, Prod.mk.injEq] at same
      obtain ⟨-, rfl⟩ := same
      rw [registry]
      exact ⟨base, _, Pass.resume_accounts table result accounts⟩

/-- What lasts, and holds of the kinds as they are and as they will be configured, holds after every run. -/
theorem run_keeps (lasting : Lasting holds) (moves : List Move) (orderly : e.Orderly)
    (upholds : e.registry.Upholds runs holds) :
    (e.run moves).1.Orderly ∧ (e.run moves).1.registry.Upholds (runs ++ (e.run moves).2) holds := by
  induction moves generalizing e runs with
  | nil => exact ⟨orderly, by simpa [run] using upholds⟩
  | cons m rest ih =>
    have moved := e.step_moved m
    have kept := ih (moved.orderly orderly) (moved.keeps orderly lasting upholds)
    simpa only [run, List.append_assoc] using kept

abbrev initial (scripts : PerKind (Option Scripts)) (builders : Artifact.Builders) : Engine :=
  .ofRegistry (.ofScripts scripts builders)

theorem initial_orderly (scripts : PerKind (Option Scripts)) (builders : Artifact.Builders) :
    (initial scripts builders).Orderly :=
  ⟨fun kind => by cases kind <;> rfl, fun begun => (by cases begun), fun _ _ current => (by cases current)⟩

/-- What holds of kinds without a history, blank or just configured, holds at first. -/
theorem initial_upholds {scripts : PerKind (Option Scripts)} {builders : Artifact.Builders}
    (blank : ∀ kind, holds kind (.blank kind) [])
    (configured : ∀ kind other, holds kind (Registry.configureKind other (.blank kind) (scripts.get kind)).1 []) :
    (initial scripts builders).registry.Upholds [] holds := by
  have fresh (kind : Kind) : (initial scripts builders).registry.updater kind = .blank kind := by cases kind <;> rfl
  refine ⟨fun kind => ?_, fun _ kind other => ?_⟩
  · rw [fresh]
    exact blank kind
  · rw [fresh]
    exact configured kind other

end Engine
end Leasehold
