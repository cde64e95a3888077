import Leasehold.Proofs.PassTurns
import Leasehold.Proofs.SourceCollection

/-! What a pass achieves. Wherever it stops for a script, the kinds that it has dealt with are as their best
source wants them unless their outcome says that something failed, and the kind whose script runs is on
the way there. -/

namespace Leasehold

def latest? (outcomes : List KindOutcome) (kind : Kind) : Option KindOutcome :=
  (outcomes.filter fun o => o.kind = kind).getLast?

theorem latest?_append (outcomes : List KindOutcome) (o : KindOutcome) (kind : Kind) :
    latest? (outcomes ++ [o]) kind = if o.kind = kind then some o else latest? outcomes kind := by
  unfold latest?
  by_cases same : o.kind = kind <;> simp [same]

namespace Updater

def restorable (u : Updater) : Bool := u.scripts.any Scripts.hasBackupRestore

/-- The updater of a kind: what is installed can be undone, if the kind has the scripts for that. -/
structure Proper (u : Updater) (kind : Kind) : Prop where
  kind : u.kind = kind
  safe : u.restorable = true → u.haveBackup = false → u.installedSeqno = notInstalled

/-- The best source is installed; without one the host's own settings are back, if they can be. -/
structure AtGoal (u : Updater) : Prop where
  installed : ∀ source, u.selectSource = some source → u.installedSeqno = source.seqno
  restored : u.selectSource = none → u.restorable = true → u.installedSeqno = notInstalled ∧ u.haveBackup = false

def WorksTowards (u : Updater) : Work → Prop
  | .restore => u.selectSource = none
  | .backup source _ => u.selectSource = some source
  | .install source _ => u.selectSource = some source ∧ (u.restorable = true → u.haveBackup = true)

structure Underway (u : Updater) (r : Running) : Prop where
  call : r.call.kind = u.kind
  outcome : r.outcome.kind = u.kind
  work : u.WorksTowards r.work

def Follows (u : Updater) : Next → Prop
  | .done o => o.kind = u.kind ∧ (u.enabled = true → o.success = true → u.AtGoal)
  | .run r => u.Underway r

/-- A kind that was dealt with is at its goal, if its most recent outcome is a success. -/
structure Dealt (u : Updater) (outcomes : List KindOutcome) : Prop where
  pruned : u.Pruned
  goal : u.enabled = true → ∀ o, latest? outcomes u.kind = some o → o.success = true → u.AtGoal

variable {u : Updater} {kind : Kind} {outcomes : List KindOutcome} {o : KindOutcome}

theorem Dealt.append_other (dealt : u.Dealt outcomes) (other : o.kind ≠ u.kind) : u.Dealt (outcomes ++ [o]) := by
  refine ⟨dealt.pruned, ?_⟩
  rw [latest?_append, if_neg other]
  exact dealt.goal

theorem Follows.dealt (follows : u.Follows (.done o)) (pruned : u.Pruned) : u.Dealt (outcomes ++ [o]) := by
  refine ⟨pruned, fun enabled last latest success => ?_⟩
  rw [latest?_append, if_pos follows.1] at latest
  cases latest
  exact follows.2 enabled success

theorem not_restorable_of_backup (missing : u.command? .backup = none) : u.restorable = false := by
  unfold restorable
  unfold command? at missing
  cases scripts : u.scripts with
  | none => rfl
  | some s => simp_all [Scripts.command?, Scripts.hasBackupRestore]

theorem not_restorable_of_restore (missing : u.command? .restore = none) : u.restorable = false := by
  unfold restorable
  unfold command? at missing
  cases scripts : u.scripts with
  | none => rfl
  | some s => simp_all [Scripts.command?, Scripts.hasBackupRestore]

end Updater

namespace Pass

open Updater

variable {u : Updater} {kind : Kind}

theorem failed_follows {o : KindOutcome} (message : String) (same : o.kind = u.kind) :
    u.Follows (.done (o.failed message)) :=
  ⟨same, fun _ success => by cases success⟩

theorem installing_underway {source : Source} {artifact : String} {o : KindOutcome} (same : o.kind = u.kind)
    (selected : u.selectSource = some source) (backed : u.restorable = true → u.haveBackup = true) :
    u.Underway (installing u source artifact o) :=
  ⟨rfl, same, selected, backed⟩

structure Continues (u next : Updater) (kind : Kind) : Prop where
  proper : next.Proper kind
  sources : next.sources = u.sources

theorem faulted_follows {o : KindOutcome} (fault : ApplyFault) (proper : u.Proper kind) (same : o.kind = u.kind) :
    Continues u (u.afterFault fault) kind ∧ (u.afterFault fault).Follows (.done (o.failed fault.message)) := by
  obtain ⟨kind, sources, -⟩ := afterFault_rest u fault
  refine ⟨⟨?_, sources⟩, failed_follows _ (same.trans kind.symm)⟩
  cases fault with
  | script | other => exact proper
  | unsupported => exact ⟨proper.kind, proper.safe⟩

theorem Planned.follows {builders : Artifact.Builders} {table : LeaseTable} {next : Next} {u' : Updater}
    (planned : Planned builders table u next u') (proper : u.Proper kind) :
    Continues u u' kind ∧ u'.Follows next := by
  cases planned with
  | standing source selected same =>
    refine ⟨⟨proper, rfl⟩, rfl, fun _ _ => ⟨fun other selected' => ?_, by simp [selected]⟩⟩
    exact Option.some.inj (selected.symm.trans selected') ▸ same.symm
  | bare selected nothing =>
    refine ⟨⟨proper, rfl⟩, rfl, fun _ _ => ⟨by simp [selected], fun _ restorable => ?_⟩⟩
    cases backed : u.haveBackup with
    | false => exact ⟨proper.safe restorable backed, rfl⟩
    -- A backup that no script can bring back: the kind is not restorable.
    | true => simp [not_restorable_of_restore (nothing backed)] at restorable
  | restoring argv selected => exact ⟨⟨proper, rfl⟩, rfl, rfl, selected⟩
  | saving source artifact argv selected => exact ⟨⟨proper, rfl⟩, rfl, rfl, selected⟩
  | installing source artifact selected differs built safe =>
    refine ⟨⟨proper, rfl⟩, installing_underway rfl selected fun restorable => ?_⟩
    cases backed : u.haveBackup with
    | true => rfl
    | false => simp [not_restorable_of_backup (safe backed)] at restorable
  | unbuilt source fault => exact faulted_follows fault proper rfl

theorem Concluded.follows {table : LeaseTable} {origins : List (Int × Scalar)} {r : Running} {result : RunResult}
    {changes : List Audit.Change} {next : Next} {u' : Updater}
    (concluded : Concluded table origins u r result changes next u') (proper : u.Proper kind)
    (underway : u.Underway r) : Continues u u' kind ∧ u'.Follows next := by
  have same := underway.outcome
  have goal := underway.work
  cases concluded with
  | crashed fault => exact faulted_follows fault proper same
  | unwritten | failed => exact ⟨⟨proper, rfl⟩, failed_follows _ same⟩
  | restored output error work =>
    rw [work] at goal
    refine ⟨⟨⟨proper.kind, fun _ _ => rfl⟩, rfl⟩, same, fun _ _ => ⟨fun source selected => ?_, fun _ _ => ⟨rfl, rfl⟩⟩⟩
    exact absurd (goal.symm.trans selected) (by simp)
  | saved output error source artifact work =>
    rw [work] at goal
    exact ⟨⟨⟨proper.kind, fun _ backed => by cases backed⟩, rfl⟩, installing_underway same goal fun _ => rfl⟩
  | installed output error source artifact work =>
    rw [work] at goal
    refine ⟨⟨⟨proper.kind, fun restorable backed => ?_⟩, rfl⟩, same, fun _ _ => ⟨fun other selected => ?_, ?_⟩⟩
    · exact absurd ((goal.2 restorable).symm.trans backed) (by simp)
    · exact congrArg Source.seqno (Option.some.inj (goal.1.symm.trans selected))
    · exact fun none => absurd (goal.1.symm.trans none) (by simp)

end Pass

structure Updater.Pares (u next : Updater) : Prop where
  kind : next.kind = u.kind
  marks : ∀ n, next.Marks n ↔ u.Marks n
  entries : next.entries.Sublist u.entries

namespace Updater.Pares

variable {u mid next : Updater} {store : Store}

theorem refl (u : Updater) : u.Pares u := ⟨rfl, fun _ => Iff.rfl, .refl _⟩

theorem trans (first : u.Pares mid) (last : mid.Pares next) : u.Pares next :=
  ⟨last.kind.trans first.kind, fun n => (last.marks n).trans (first.marks n), last.entries.trans first.entries⟩

theorem prune (u : Updater) : u.Pares u.pruneSources :=
  ⟨rfl, u.pruneSources_marks, u.pruneSources_entries⟩

theorem reflects (pares : u.Pares next) (reflects : u.Reflects store) : next.Reflects store := by
  intro n
  rw [pares.marks, reflects n, pares.kind]

theorem weighed (pares : u.Pares next) (weighed : u.Weighed store) : next.Weighed store :=
  ⟨weighed.known.sublist (pares.entries.map _), fun e member => weighed.issued e (pares.entries.mem member),
    fun e member => weighed.weight e (pares.entries.mem member)⟩

end Updater.Pares

theorem Updater.Pares.of_sources {u next : Updater} (kind : next.kind = u.kind) (sources : next.sources = u.sources) :
    u.Pares next :=
  ⟨kind, fun n => by simp only [Updater.Marks, sources], by simp only [Updater.entries, sources, List.Sublist.refl]⟩

theorem Pass.Continues.pares {u next : Updater} {kind : Kind} (continues : Continues u next kind)
    (proper : u.Proper kind) : u.Pares next :=
  .of_sources (continues.proper.kind.trans proper.kind.symm) continues.sources

theorem Pass.Continues.pruned {u next : Updater} {kind : Kind} (continues : Continues u next kind)
    (pruned : u.Pruned) : next.Pruned := by
  simpa only [Updater.Pruned, continues.sources] using pruned

namespace Registry

@[simp] theorem updater_modify (r : Registry) (kind other : Kind) (change : Updater → Updater) :
    (r.modify kind change).updater other = if other = kind then change (r.updater kind) else r.updater other :=
  PerKind.get_set _ _ _ _

theorem updater_modify_self (r : Registry) (kind : Kind) (change : Updater → Updater) :
    (r.modify kind change).updater kind = change (r.updater kind) :=
  (r.updater_modify kind kind change).trans (if_pos rfl)

theorem updater_modify_of_ne (r : Registry) {kind other : Kind} (change : Updater → Updater)
    (different : other ≠ kind) : (r.modify kind change).updater other = r.updater other :=
  (r.updater_modify kind other change).trans (if_neg different)

@[simp] theorem updater_modifyAll (r : Registry) (kind : Kind) (change : Updater → Updater) :
    (r.modifyAll change).updater kind = change (r.updater kind) :=
  PerKind.get_map _ _ _

def Proper (r : Registry) : Prop := ∀ kind, (r.updater kind).Proper kind

/-- The updaters are what a stretch of a pass may make of them. -/
structure Yields (r next : Registry) : Prop where
  proper : next.Proper
  configured : next.configured = r.configured
  pares : ∀ kind, (r.updater kind).Pares (next.updater kind)

theorem Yields.trans {r mid next : Registry} (first : r.Yields mid) (last : mid.Yields next) : r.Yields next :=
  ⟨last.proper, last.configured.trans first.configured, fun kind => (first.pares kind).trans (last.pares kind)⟩

theorem Yields.modify {r : Registry} {kind : Kind} {u : Updater} (proper : r.Proper) (one : u.Proper kind)
    (pares : (r.updater kind).Pares u) : r.Yields (r.modify kind fun _ => u) := by
  refine ⟨fun other => ?_, rfl, fun other => ?_⟩
  all_goals
    rw [updater_modify]
    split
    next same => subst same; assumption
  · exact proper other
  · exact .refl _

end Registry

namespace Pass

/-- How a pass stands: each kind is dealt with, or waits for its turn, or has its script running. -/
def Stands (p : Pass) (r : Registry) (history : List KindOutcome) : Prop :=
  match p.waiting with
  | none => ∀ kind, (r.updater kind).Dealt (history ++ p.outcomes)
  | some (running, rest) =>
    rest.Nodup ∧ running.call.kind ∉ rest ∧ (r.updater running.call.kind).Underway running ∧
      (r.updater running.call.kind).Pruned ∧
      ∀ kind, kind ∉ rest → kind ≠ running.call.kind → (r.updater kind).Dealt (history ++ p.outcomes)

structure Goes (r : Registry) (history : List KindOutcome) (s : Stretch) : Prop where
  yields : r.Yields s.registry
  stands : s.pass.Stands s.registry history

variable {r : Registry} {history outcomes : List KindOutcome} {kind : Kind} {rest : List Kind} {u : Updater}

private theorem dealt_done {o : KindOutcome} (proper : r.Proper) (one : u.Proper kind) (pruned : u.Pruned)
    (follows : u.Follows (.done o))
    (dealt : ∀ other, other ∉ rest → other ≠ kind → (r.updater other).Dealt (history ++ outcomes)) :
    ∀ other, other ∉ rest → ((r.modify kind fun _ => u).updater other).Dealt (history ++ (outcomes ++ [o])) := by
  intro other later
  rw [Registry.updater_modify, ← List.append_assoc]
  split
  next => exact follows.dealt pruned
  next different =>
    refine (dealt other later different).append_other ?_
    rw [follows.1, one.kind, (proper other).kind]
    exact Ne.symm different

private theorem stands_run {origins : List (Int × Scalar)} {running : Running} (nodup : rest.Nodup)
    (later : kind ∉ rest) (one : u.Proper kind) (pruned : u.Pruned) (underway : u.Underway running)
    (dealt : ∀ other, other ∉ rest → other ≠ kind → (r.updater other).Dealt (history ++ outcomes)) :
    Stands ⟨origins, outcomes, some (running, rest)⟩ (r.modify kind fun _ => u) history := by
  have here : running.call.kind = kind := underway.call.trans one.kind
  refine ⟨nodup, here ▸ later, ?_, ?_, fun other later different => ?_⟩
  · rw [Registry.updater_modify, if_pos here]
    exact underway
  · rw [Registry.updater_modify, if_pos here]
    exact pruned
  · rw [here] at different
    rw [Registry.updater_modify_of_ne _ _ different]
    exact dealt other later different

theorem Advanced.goes {table : LeaseTable} {origins : List (Int × Scalar)} {kinds : List Kind} {r' : Registry}
    {p : Pass} (advanced : Advanced table origins kinds r outcomes r' p) (proper : r.Proper) (nodup : kinds.Nodup)
    (dealt : ∀ kind, kind ∉ kinds → (r.updater kind).Dealt (history ++ outcomes)) :
    r.Yields r' ∧ p.Stands r' history := by
  -- The kinds that have had their turn are dealt with; those in the list may be as they like.
  have shorter {kind : Kind} {rest : List Kind} {r : Registry} {outcomes : List KindOutcome}
      (dealt : ∀ other, other ∉ kind :: rest → (r.updater other).Dealt (history ++ outcomes)) (other : Kind)
      (absent : other ∉ rest) (different : other ≠ kind) : (r.updater other).Dealt (history ++ outcomes) :=
    dealt other (by simp [absent, different])
  have one {r : Registry} (proper : r.Proper) (kind : Kind) : (r.updater kind).pruneSources.Proper kind :=
    ⟨(proper kind).kind, (proper kind).safe⟩
  induction advanced with
  | finished r outcomes => exact ⟨⟨proper, rfl, fun _ => .refl _⟩, fun kind => dealt kind (by simp)⟩
  | @skipped kind rest r r' outcomes p disabled later ih =>
    have yields : r.Yields (r.modify kind fun _ => (r.updater kind).pruneSources) :=
      .modify proper (one proper kind) (Updater.Pares.prune _)
    obtain ⟨yields', stands⟩ := ih yields.proper (List.nodup_cons.mp nodup).2 fun other absent => by
      rw [Registry.updater_modify]
      split
      next => exact ⟨(r.updater kind).pruneSources_pruned, fun enabled => by simp [disabled] at enabled⟩
      next different => exact shorter dealt other absent different
    exact ⟨yields.trans yields', stands⟩
  | @done kind rest r r' outcomes p o u enabled planned later ih =>
    obtain ⟨continues, follows⟩ := planned.follows (one proper kind)
    have pruned : u.Pruned := continues.pruned (r.updater kind).pruneSources_pruned
    have yields : r.Yields (r.modify kind fun _ => u) :=
      .modify proper continues.proper ((Updater.Pares.prune _).trans (continues.pares (one proper kind)))
    obtain ⟨yields', stands⟩ := ih yields.proper (List.nodup_cons.mp nodup).2
      (dealt_done proper continues.proper pruned follows (shorter dealt))
    exact ⟨yields.trans yields', stands⟩
  | @stopped kind rest r outcomes running u enabled planned =>
    obtain ⟨later, nodup⟩ := List.nodup_cons.mp nodup
    obtain ⟨continues, follows⟩ := planned.follows (one proper kind)
    have pruned : u.Pruned := continues.pruned (r.updater kind).pruneSources_pruned
    exact ⟨.modify proper continues.proper ((Updater.Pares.prune _).trans (continues.pares (one proper kind))),
      stands_run nodup later continues.proper pruned follows (shorter dealt)⟩

theorem resume_goes (p : Pass) (table : LeaseTable) (result : RunResult) (proper : r.Proper)
    (stands : p.Stands r history) : Goes r history (p.resume table r result) := by
  match waiting : p.waiting with
  | none => simpa [resume, waiting] using Goes.mk (s := ⟨r, p, [], []⟩) ⟨proper, rfl, fun _ => .refl _⟩ stands
  | some (running, rest) =>
    have resumed := resume_resumed waiting table r result
    simp only [Stands, waiting] at stands
    obtain ⟨nodup, later, underway, pruned, others⟩ := stands
    have one := proper running.call.kind
    generalize p.resume table r result = s at resumed ⊢
    obtain ⟨r', p', changes, log⟩ := s
    cases resumed with
    | again concluded =>
      obtain ⟨continues, follows⟩ := concluded.follows one underway
      exact ⟨.modify proper continues.proper (continues.pares one),
        stands_run nodup later continues.proper (continues.pruned pruned) follows others⟩
    | @on o u _ _ concluded advanced =>
      obtain ⟨continues, follows⟩ := concluded.follows one underway
      have yields : r.Yields (r.modify running.call.kind fun _ => u) :=
        .modify proper continues.proper (continues.pares one)
      obtain ⟨yields', stands⟩ := advanced.goes yields.proper nodup
        (dealt_done proper continues.proper (continues.pruned pruned) follows others)
      exact ⟨yields.trans yields', stands⟩

end Pass

namespace Registry

def Fresh (r : Registry) : Prop :=
  r.configured = true ∨ ∀ kind, (r.updater kind).installedSeqno = notInstalled

theorem configureKind_keeps (builders : Artifact.Builders) (u : Updater) (scripts : Option Scripts) :
    let next := (configureKind builders u scripts).1
    next.kind = u.kind ∧ next.sources = u.sources ∧ next.installedSeqno = u.installedSeqno := by
  unfold configureKind
  simp only
  split
  next => exact ⟨rfl, rfl, rfl⟩
  next =>
    split
    next => exact ⟨rfl, rfl, rfl⟩
    next =>
      split
      next => exact ⟨rfl, rfl, rfl⟩
      next => exact ⟨rfl, rfl, rfl⟩

theorem configure_configured (r : Registry) : r.configure.1.configured = true := by
  unfold configure
  split
  next done => exact done
  next => rfl

theorem configure_updater (r : Registry) (kind : Kind) : r.configure.1.updater kind =
    if r.configured then r.updater kind else (configureKind r.builders (r.updater kind) (r.scripts.get kind)).1 := by
  unfold configure
  split <;> simp [updater]

theorem configure_identity (r : Registry) (kind : Kind) :
    (r.configure.1.updater kind).kind = (r.updater kind).kind ∧
      (r.configure.1.updater kind).sources = (r.updater kind).sources := by
  rw [configure_updater]
  split
  next => exact ⟨rfl, rfl⟩
  next =>
    obtain ⟨same, sources, -⟩ := configureKind_keeps r.builders (r.updater kind) (r.scripts.get kind)
    exact ⟨same, sources⟩

theorem configure_keeps (r : Registry) (proper : r.Proper) (fresh : r.Fresh) :
    r.configure.1.Proper ∧ ∀ kind, (r.configure.1.updater kind).sources = (r.updater kind).sources := by
  refine ⟨fun kind => ?_, fun kind => (r.configure_identity kind).2⟩
  rw [configure_updater]
  split
  next => exact proper kind
  next undone =>
    obtain ⟨same, -, installed⟩ := configureKind_keeps r.builders (r.updater kind) (r.scripts.get kind)
    exact ⟨same.trans (proper kind).kind, fun _ _ => installed.trans (fresh.resolve_left undone kind)⟩

end Registry

/-- A pass that begins takes stock: the marked sources are the leases that drive their kinds. -/
theorem Pass.start_goes (store : Store) (r : Registry) (history : List KindOutcome) (proper : r.Proper)
    (fresh : r.Fresh) (numbered : store.Numbered) (weighed : ∀ kind, (r.updater kind).Weighed store) :
    let s := Pass.start store r
    s.registry.Proper ∧ s.registry.configured = true ∧ s.pass.Stands s.registry history ∧
      ∀ kind, (s.registry.updater kind).Reflects store ∧ (s.registry.updater kind).Weighed store := by
  obtain ⟨configured, sources⟩ := r.configure_keeps proper fresh
  have weighed (kind : Kind) : (r.configure.1.updater kind).Weighed store := by
    have same := (configured kind).kind.trans (proper kind).kind.symm
    exact (Updater.Pares.of_sources same (sources kind)).weighed (weighed kind)
  have collected : (r.configure.1.modifyAll fun u => u.collect store).Proper := by
    intro kind
    rw [Registry.updater_modifyAll, Updater.collect_rest]
    exact ⟨(configured kind).kind, (configured kind).safe⟩
  have none_dealt (kind : Kind) (absent : kind ∉ Kind.all) :
      ((r.configure.1.modifyAll fun u => u.collect store).updater kind).Dealt (history ++ []) :=
    absurd kind.mem_all absent
  obtain ⟨yields, stands⟩ := (advance_advanced store.table (originsOf store) Kind.all
    (r.configure.1.modifyAll fun u => u.collect store) []).1.goes collected (by decide) none_dealt
  refine ⟨yields.proper, yields.configured.trans r.configure_configured, stands, fun kind => ?_⟩
  have pares := yields.pares kind
  rw [Registry.updater_modifyAll] at pares
  exact ⟨pares.reflects (Updater.collect_reflects store _),
    pares.weighed (Updater.collect_weighed store (weighed kind) numbered)⟩

end Leasehold
