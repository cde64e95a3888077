import Leasehold.Proofs.AuditReplay
import Leasehold.Proofs.RepeatedPasses

/-! The records of a pass. Every script that a pass runs to its end is named in the outcomes and has one record, in
the same order; and what a record says of an installation is said of the lease from which the script got its
artifact. -/

namespace Leasehold

def KindOutcome.scripts (o : KindOutcome) : List (Kind × Role) := o.scriptsRun.map fun role => (o.kind, role)

def PassResult.scripts (r : PassResult) : List (Kind × Role) := r.outcomes.flatMap KindOutcome.scripts

def Next.outcome : Next → KindOutcome
  | .done o => o
  | .run r => r.outcome

namespace ScriptRun

def completed (run : ScriptRun) : Bool :=
  match run.result with
  | .ended _ _ _ => true
  | .crashed _ => false

def script (run : ScriptRun) : Kind × Role := (run.kind, run.role)

def scripts (runs : List ScriptRun) : List (Kind × Role) := (runs.filter completed).map script

end ScriptRun

namespace Pass

def scripts (p : Pass) : List (Kind × Role) :=
  p.outcomes.flatMap KindOutcome.scripts ++ (p.waiting.map fun w => w.1.outcome.scripts).getD []

variable {builders : Artifact.Builders} {table : LeaseTable} {origins : List (Int × Scalar)} {kinds : List Kind}
  {u u' : Updater} {r : Running} {result : RunResult} {changes : List Audit.Change} {next : Next}
  {before : List ScriptRun} {registry registry' : Registry} {outcomes : List KindOutcome} {p : Pass}

theorem Planned.scripts (planned : Planned builders table u next u') : next.outcome.scripts = [] := by
  cases planned <;> rfl

/-- A turn whose script runs to its end counts it. -/
theorem Concluded.scripts (concluded : Concluded table origins u r result changes next u')
    (same : r.outcome.kind = r.call.kind) :
    next.outcome.scripts = r.outcome.scripts ++ ScriptRun.scripts [⟨r, u, result, changes⟩] := by
  have counted (role : Role) : (r.outcome.ran role).scripts = r.outcome.scripts ++ [(r.call.kind, role)] := by
    simp [KindOutcome.ran, KindOutcome.scripts, same]
  cases concluded with
  | crashed message => exact (List.append_nil _).symm
  | unwritten | failed | restored | saved | installed => exact counted r.call.role

theorem Advanced.scripts (advanced : Advanced table origins kinds registry outcomes registry' p) :
    p.scripts = outcomes.flatMap KindOutcome.scripts := by
  induction advanced with
  | finished => simp [Pass.scripts]
  | skipped disabled later ih => exact ih
  | done enabled planned later ih =>
    have silent := planned.scripts
    rw [ih, List.flatMap_append]
    simpa [Next.outcome] using silent
  | stopped rest outcomes enabled planned =>
    have silent := planned.scripts
    simpa [Pass.scripts, Next.outcome] using silent

theorem resume_scripts {rest : List Kind} (waiting : p.waiting = some (r, rest)) (table : LeaseTable)
    (registry : Registry) (result : RunResult) (same : r.outcome.kind = r.call.kind) :
    (p.resume table registry result).pass.scripts = p.scripts ++
      ScriptRun.scripts (p.ended registry result (p.resume table registry result).changes) := by
  have resumed := resume_resumed waiting table registry result
  simp only [ended, waiting]
  generalize (p.resume table registry result).pass = next, (p.resume table registry result).registry = registry',
    (p.resume table registry result).changes = changes at resumed ⊢
  cases resumed with
  | again concluded => simpa [Pass.scripts, waiting, Next.outcome] using concluded.scripts same
  | on concluded later =>
    rw [later.scripts]
    simpa [Pass.scripts, waiting, Next.outcome] using concluded.scripts same

theorem Advanced.kept (advanced : Advanced table origins kinds registry outcomes registry' p) :
    registry'.builders = registry.builders ∧ p.origins = origins := by
  induction advanced with
  | finished | stopped => exact ⟨rfl, rfl⟩
  | skipped disabled later ih | done enabled planned later ih => exact ih

/-- What a script is to install, after a backup or at once, was made by builders in force from a lease as it was. -/
def Drafted (force : Artifact.Builders → Prop) (sound : LeaseTable → Prop) (r : Running) : Prop :=
  ∀ source artifact, r.work = .backup source artifact ∨ r.work = .install source artifact →
    ∃ builders table, force builders ∧ sound table ∧ builders.build r.call.kind (source.content table) = .ok artifact

/-- A script run as it ended in the middle of its kind's turn. -/
structure Attested (base : Kind → Updater) (origins : List (Int × Scalar)) (force : Artifact.Builders → Prop)
    (sound : LeaseTable → Prop) (run : ScriptRun) : Prop where
  heading : ∃ before, Heading (base run.kind) before run.updater run.running
  concluded : ∃ table next u, sound table ∧
    Concluded table origins run.updater run.running run.result run.changes next u
  drafted : Drafted force sound run.running

/-- The account of a pass with its records: the outcomes name the scripts that ran to their ends, and of each run it
is known how it ended. -/
structure Documented (base : Kind → Updater) (origins : List (Int × Scalar)) (force : Artifact.Builders → Prop)
    (sound : LeaseTable → Prop) (p : Pass) (runs : List ScriptRun) (r : Registry) : Prop where
  snapshot : p.origins = origins
  forced : force r.builders
  accounts : p.Accounts base runs r
  scripts : p.scripts = ScriptRun.scripts runs
  drafted : ∀ running rest, p.waiting = some (running, rest) → Drafted force sound running
  attested : ∀ run ∈ runs, Attested base origins force sound run

section
variable {force : Artifact.Builders → Prop} {sound : LeaseTable → Prop} {base : Kind → Updater}
  {runs : List ScriptRun} {running : Running} {rest : List Kind}

theorem Planned.drafted (planned : Planned builders table u (.run r) u') (forced : force builders)
    (fits : sound table) : Drafted force sound r := by
  intro source artifact work
  cases planned with
  | restoring => simp at work
  | saving _ _ _ _ _ built | installing _ _ _ _ built =>
    obtain ⟨rfl, rfl⟩ : _ = source ∧ _ = artifact := by simpa [Pass.installing] using work
    exact ⟨builders, table, forced, fits, built⟩

/-- The installation after a backup has the artifact that was made before it. -/
theorem Concluded.drafted {r' : Running} (concluded : Concluded table origins u r result changes (.run r') u')
    (drafted : Drafted force sound r) (same : r.call.kind = u.kind) : Drafted force sound r' := by
  intro source artifact work
  cases concluded with
  | saved output error source' artifact' before =>
    obtain ⟨rfl, rfl⟩ : source' = source ∧ artifact' = artifact := by simpa [Pass.installing] using work
    simpa [Pass.installing, Updater.call, same] using drafted _ _ (Or.inl before)

theorem Advanced.drafted (advanced : Advanced table origins kinds registry outcomes registry' p)
    (forced : force registry.builders) (fits : sound table) :
    ∀ running rest, p.waiting = some (running, rest) → Drafted force sound running := by
  induction advanced with
  | finished => simp
  | skipped disabled later ih | done enabled planned later ih => exact ih forced
  | stopped rest outcomes enabled planned =>
    rintro running rest waiting
    obtain ⟨rfl, -⟩ := Prod.mk.inj (Option.some.inj waiting)
    exact planned.drafted forced fits

theorem start_documented (store : Store) (r : Registry) (label : ∀ kind, (r.updater kind).kind = kind)
    (forced : force r.builders) (fits : sound store.table) :
    Documented (baseOf store r) (originsOf store) force sound (start store r).pass [] (start store r).registry := by
  have advanced := (advance_advanced store.table (originsOf store) Kind.all
    (r.configure.1.modifyAll fun u => u.collect store) []).1
  have same : r.configure.1.builders = r.builders := by
    unfold Registry.configure
    split <;> rfl
  have forced : force (r.configure.1.modifyAll fun u => u.collect store).builders := same ▸ forced
  exact ⟨advanced.kept.2, advanced.kept.1 ▸ forced, start_accounts store r label, advanced.scripts,
    advanced.drafted forced fits, by simp⟩

theorem Documented.rebuilt (documented : Documented base origins force sound p runs registry)
    (forced : force builders) :
    Documented base origins force sound p runs { registry with builders := builders } :=
  { documented with forced := forced, accounts := documented.accounts.rebuilt builders }

theorem Documented.resume (documented : Documented base origins force sound p runs registry) (fits : sound table)
    (result : RunResult) :
    Documented base origins force sound (p.resume table registry result).pass
      (runs ++ p.ended registry result (p.resume table registry result).changes)
      (p.resume table registry result).registry := by
  match waiting : p.waiting with
  | none =>
    simp only [Pass.resume, ended, waiting, List.append_nil]
    exact documented
  | some (running, rest) =>
    have resumed := resume_resumed waiting table registry result
    obtain ⟨-, heading⟩ := documented.accounts.heading waiting
    have same : running.outcome.kind = running.call.kind := heading.outcome.trans heading.kind.symm
    have drafted := documented.drafted running rest waiting
    have accounts := resume_accounts table result documented.accounts
    have scripts := resume_scripts waiting table registry result same
    have forced := documented.forced
    simp only [ended, waiting] at accounts scripts ⊢
    generalize (p.resume table registry result).pass = next, (p.resume table registry result).registry = registry',
      (p.resume table registry result).changes = changes at resumed accounts scripts ⊢
    rw [documented.snapshot] at resumed
    have counted : next.scripts =
        ScriptRun.scripts (runs ++ [⟨running, registry.updater running.call.kind, result, changes⟩]) := by
      rw [scripts, documented.scripts, ScriptRun.scripts, ScriptRun.scripts, ScriptRun.scripts, List.filter_append,
        List.map_append]
    have attested {what : Next} {u : Updater} (concluded : Concluded table origins
        (registry.updater running.call.kind) running result changes what u) :
        ∀ run ∈ runs ++ [⟨running, registry.updater running.call.kind, result, changes⟩],
          Attested base origins force sound run :=
      List.forall_mem_append.mpr ⟨documented.attested, List.forall_mem_singleton.mpr
        ⟨⟨_, heading⟩, ⟨table, what, u, fits, concluded⟩, drafted⟩⟩
    cases resumed with
    | @again running' u concluded =>
      refine ⟨rfl, forced, accounts, counted, fun script later waiting => ?_, attested concluded⟩
      obtain ⟨rfl, -⟩ := Prod.mk.inj (Option.some.inj waiting)
      exact concluded.drafted drafted heading.kind
    | on concluded later =>
      exact ⟨later.kept.2, later.kept.1 ▸ forced, accounts, counted, later.drafted forced fits, attested concluded⟩

end
end Pass

namespace Store

/-- A lease that is held and cannot be named in a record: its number has too many digits, or the name of its device is
no JSON datum. -/
def Unwritable (s : Store) (n : Int) : Prop :=
  ∃ device id, (device, id) ∈ s.held ∧ (s.lease id).seqno = n ∧
    (Whole.isUnwritable n = true ∨ ∀ text, Json.scalar device ≠ .ok text)

def Keeps (s : Store) (table : LeaseTable) : Prop := ∀ id, s.Holds id → table.get id = s.lease id

variable {s : Store} {device : Scalar} {id : LeaseId} {n : Int}

theorem mem_held_of_lookup (found : (Pass.originsOf s).lookup n = some device) :
    ∃ id, (device, id) ∈ s.held ∧ (s.lease id).seqno = n := by
  obtain ⟨before, after, split, -⟩ := List.lookup_eq_some_iff.mp found
  have listed : (n, device) ∈ (Pass.originsOf s) := split ▸ List.mem_append_right before (.head after)
  obtain ⟨⟨device', id⟩, member, same⟩ := List.mem_map.mp (List.mem_reverse.mp listed)
  obtain ⟨rfl, rfl⟩ := Prod.mk.inj same
  exact ⟨id, member, rfl⟩

theorem lookup_of_mem_held (apart : (s.numbers (s.held.map (·.2))).Nodup) (member : (device, id) ∈ s.held) :
    (Pass.originsOf s).lookup (s.lease id).seqno = some device := by
  have listed : ((s.lease id).seqno, device) ∈ Pass.originsOf s :=
    List.mem_reverse.mpr (List.mem_map.mpr ⟨(device, id), member, rfl⟩)
  have nodup : ((Pass.originsOf s).map Prod.fst).Nodup := by
    rw [Pass.originsOf, List.map_reverse, (List.reverse_perm _).nodup_iff, List.map_map]
    simpa [numbers, Function.comp_def] using apart
  obtain ⟨before, after, split⟩ := List.append_of_mem listed
  rw [split, List.map_append, List.map_cons, List.nodup_append] at nodup
  refine List.lookup_eq_some_iff.mpr ⟨before, after, split, fun p earlier => ?_⟩
  simpa using (nodup.2.2 p.1 (List.mem_map_of_mem earlier) _ List.mem_cons_self).symm

end Store

/-- The script has one record if it ran to its end, and none if it broke down. Only the installation of a lease that
cannot be named has none in any case. -/
inductive OnRecord (store : Store) (run : ScriptRun) : Prop
  | written (c : Audit.Change) (completed : run.completed = true) (one : run.changes = [c])
      (kind : c.kind = run.kind.name) (operation : c.operation = run.role.name) (success : c.success = run.succeeded)
  | crashed (incomplete : run.completed = false) (none : run.changes = [])
  | lost (completed : run.completed = true) (none : run.changes = []) (n : Int) (install : run.role = .install)
      (lease : run.lease? = some n) (unwritable : store.Unwritable n)

/-- The record of an installation names a lease in the store by its number, its device and its origin, and the script
got the artifact that builders in force make from this lease. -/
structure NamesLease (store : Store) (force : Artifact.Builders → Prop) (run : ScriptRun) (c : Audit.Change)
    (device : Scalar) (id : LeaseId) : Prop where
  held : (device, id) ∈ store.held
  seqno : c.seqno = (store.lease id).seqno
  device : c.device = some device
  source : c.source = some (store.lease id).origin
  artifact : ∃ builders artifact, force builders ∧ builders.build run.kind (store.lease id) = .ok artifact ∧
    run.running.call.artifact = some artifact

namespace Pass

variable {store : Store} {r : Registry} {kind : Kind} {source : Source} {force : Artifact.Builders → Prop}
  {sound : LeaseTable → Prop} {run : ScriptRun} {base u : Updater} {before : List ScriptRun} {running : Running}

theorem baseOf_selected (selected : (baseOf store r kind).selectSource = some source) :
    ∃ device id, (device, id) ∈ store.held ∧ source.lease = some id ∧ (store.lease id).seqno = source.seqno := by
  obtain ⟨⟨member, seen⟩, -⟩ := Updater.selectSource_some selected
  have collected := (List.mem_filter.mp member).1
  have latest := (Updater.collect_marked (r.configure.1.updater kind) store).latest source collected seen
  obtain ⟨id, lease⟩ := Option.isSome_iff_exists.mp seen
  have found := List.mem_filter.mp (List.mem_of_getLast? (latest.symm.trans lease))
  obtain ⟨⟨device, id'⟩, held, rfl⟩ := List.mem_map.mp (List.mem_filter.mp found.1).1
  exact ⟨device, id', held, lease, by simpa using found.2⟩

theorem Heading.install (heading : Heading base before u running) (install : running.call.role = .install) :
    ∃ source artifact, base.selectSource = some source ∧ running.work = .install source artifact ∧
      running.call.artifact = some artifact := by
  cases heading with
  | restoring | saving => cases install
  | installing source artifact selected | saved _ source artifact selected =>
    exact ⟨source, artifact, selected, rfl, rfl⟩

theorem Heading.other (heading : Heading base before u running) (other : running.call.role ≠ .install) :
    ∀ source artifact, running.work ≠ .install source artifact := by
  cases heading with
  | restoring | saving => simp
  | installing | saved => exact absurd rfl other

/-- A record that cannot be written is that of an installation. -/
theorem Attested.lost (attested : Attested (baseOf store r) (originsOf store) force sound run) {table : LeaseTable}
    {success : Bool} {output message : String} {error : Option String}
    (writable : Whole.isUnwritable run.updater.installedSeqno = false)
    (lost : (change table (originsOf store) run.updater run.running success output error).unwritable? = some message) :
    run.role = .install ∧ ∃ n, run.lease? = some n ∧ store.Unwritable n := by
  obtain ⟨before, heading⟩ := attested.heading
  by_cases install : run.role = .install
  · obtain ⟨source, artifact, selected, work, -⟩ := heading.install install
    obtain ⟨device, id, held, -, number⟩ := baseOf_selected selected
    refine ⟨install, source.seqno, by simp [ScriptRun.lease?, work], ?_⟩
    cases digits : Whole.isUnwritable source.seqno with
    | true => exact ⟨device, id, held, number, Or.inl digits⟩
    | false =>
      have unwritten := mt (Audit.Change.unwritable?_eq_none _).mpr (by rw [lost]; simp)
      obtain ⟨name, found, nameless⟩ : ∃ name, (originsOf store).lookup source.seqno = some name ∧
          ∀ text, Json.scalar name ≠ .ok text := by simpa [change, work, digits] using unwritten
      obtain ⟨id', held, number⟩ := Store.mem_held_of_lookup found
      exact ⟨name, id', held, number, Or.inr nameless⟩
  · rw [change_writable writable (heading.other install)] at lost
    cases lost

theorem Concluded.onRecord {table : LeaseTable} {origins : List (Int × Scalar)} {result : RunResult}
    {changes : List Audit.Change} {next : Next} {u' : Updater} (heading : Heading base before u running)
    (concluded : Concluded table origins u running result changes next u')
    (lost : ∀ success output error message,
      (change table origins u running success output error).unwritable? = some message →
        running.call.role = .install ∧ ∃ n, ScriptRun.lease? ⟨running, u, result, changes⟩ = some n ∧
          store.Unwritable n) : OnRecord store ⟨running, u, result, changes⟩ := by
  have kind : u.kind.name = running.call.kind.name := congrArg Kind.name heading.kind.symm
  cases concluded with
  | crashed message => exact .crashed rfl rfl
  | unwritten success output error message unwritten =>
    obtain ⟨install, n, lease, unwritable⟩ := lost success output error message unwritten
    exact .lost rfl rfl n install lease unwritable
  | failed | restored | saved | installed => exact .written _ rfl rfl kind rfl rfl

theorem Attested.onRecord (attested : Attested (baseOf store r) (originsOf store) force sound run)
    (writable : Whole.isUnwritable run.updater.installedSeqno = false) : OnRecord store run := by
  obtain ⟨table, next, u, -, concluded⟩ := attested.concluded
  obtain ⟨before, heading⟩ := attested.heading
  exact concluded.onRecord heading fun _ _ _ _ unwritten => attested.lost writable unwritten

theorem Concluded.change {table : LeaseTable} {origins : List (Int × Scalar)} {result : RunResult}
    {changes : List Audit.Change} {next : Next} {u' : Updater} {c : Audit.Change}
    (concluded : Concluded table origins u running result changes next u') (member : c ∈ changes) :
    ∃ success output error, c = Pass.change table origins u running success output error := by
  cases concluded with
  | crashed | unwritten => cases member
  | failed | restored | saved | installed => exact ⟨_, _, _, List.mem_singleton.mp member⟩

theorem Attested.namesLease (attested : Attested (baseOf store r) (originsOf store) force store.Keeps run)
    (apart : (store.numbers (store.held.map (·.2))).Nodup) (install : run.role = .install) {c : Audit.Change}
    (member : c ∈ run.changes) : ∃ device id, NamesLease store force run c device id := by
  obtain ⟨before, heading⟩ := attested.heading
  obtain ⟨source, artifact, selected, work, given⟩ := heading.install install
  obtain ⟨device, id, held, lease, number⟩ := baseOf_selected selected
  have content {table : LeaseTable} (keeps : store.Keeps table) : source.content table = store.lease id := by
    rw [Source.content, lease]
    exact keeps id (Store.mem_held.mp (List.mem_map.mpr ⟨(device, id), held, rfl⟩))
  obtain ⟨table, next, u, keeps, concluded⟩ := attested.concluded
  obtain ⟨success, output, error, rfl⟩ := concluded.change member
  obtain ⟨builders, drafting, forced, kept, built⟩ := attested.drafted source artifact (Or.inr work)
  rw [content kept] at built
  refine ⟨device, id, held, ?_, ?_, ?_, builders, artifact, forced, built, given⟩
  · simp [Pass.change, work, number]
  · simpa [Pass.change, work, number] using Store.lookup_of_mem_held apart held
  · simp [Pass.change, work, content keeps]

end Pass
end Leasehold
