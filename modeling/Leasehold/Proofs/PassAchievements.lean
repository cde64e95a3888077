import Leasehold.Proofs.PassAccounts
import Leasehold.Proofs.SourceCensus

/-! What one pass achieves. Whatever the state of the kinds and whatever becomes of the scripts, the pass comes
to an end, knows the leases that qualify as its sources, and has for each kind in service either the first of
the heaviest installed, or the host's own settings back if no lease qualifies, or a failure that leaves what
is installed as it was. -/

namespace Leasehold.Pass

variable {origins : List (Int × Scalar)} {base u : Updater} {runs : List ScriptRun} {r : Running} {o : KindOutcome}

def BackupTaken (runs : List ScriptRun) : Prop := ∃ run ∈ runs, run.role = .backup ∧ run.succeeded = true

/-- What a failure leaves of a kind's state: it may hold a backup that it did not hold before, and it may be out of
service. -/
structure Spared (base new : Updater) (o : KindOutcome) (runs : List ScriptRun) : Prop where
  rest : new = { base with haveBackup := new.haveBackup, enabled := new.enabled, fault := new.fault }
  backup : new.haveBackup = base.haveBackup ∨ new.haveBackup = true ∧ BackupTaken runs
  service : new.enabled = base.enabled ∧ new.fault = base.fault ∨ new.enabled = false ∧ new.fault = o.error

/-- What a pass has achieved for a kind in service, of which `ids` are the leases that qualify: from the state
with those as sources to the state at the end. -/
structure Achieves (ids : List LeaseId) (base new : Updater) (o : KindOutcome) (runs : List ScriptRun) : Prop where
  installs : o.success = true → ids ≠ [] → ∃ source, Updater.Leads base.sources source ∧
    new = { base with installedSeqno := source.seqno, haveBackup := new.haveBackup } ∧
    (base.haveBackup = true → new.haveBackup = true)
  restores : o.success = true → ids = [] → base.haveBackup = true → (base.command? .restore).isSome →
    (∃ run, runs = [run] ∧ run.role = .restore ∧ run.succeeded = true) ∧
    new = { base with installedSeqno := notInstalled, haveBackup := false }
  rests : o.success = true → ids = [] → ¬(base.haveBackup = true ∧ (base.command? .restore).isSome) →
    runs = [] ∧ new = base
  fails : o.success = false → Spared base new o runs

variable {ids : List LeaseId} {new : Updater} {source : Source}

/-- What was selected tells whether a lease qualifies. -/
private theorem select_cases (pruned : base.Pruned) (qualify : base.sources = [] ↔ ids = []) :
    ids = [] ∧ base.selectSource = none ∨
      ids ≠ [] ∧ ∃ source, base.selectSource = some source ∧ Updater.Leads base.sources source := by
  obtain ⟨empty, none_selected⟩ | ⟨source, selected, leads⟩ := Updater.selectSource_leads pruned
  · exact Or.inl ⟨qualify.mp empty, none_selected⟩
  · refine Or.inr ⟨fun none_qualifies => ?_, source, selected, leads⟩
    obtain ⟨before, after, split, -⟩ := leads
    rw [qualify.mpr none_qualifies] at split
    simp at split

private theorem achieves_failure (failed : o.success = false) (left : Spared base new o runs) :
    Achieves ids base new o runs :=
  ⟨fun success => by simp [failed] at success, fun success => by simp [failed] at success,
    fun success => by simp [failed] at success, fun _ => left⟩

/-- The state of a kind while one of its scripts runs is that in which its turn began, apart from a backup. -/
private theorem Heading.state (heading : Heading base runs u r) :
    u = base ∨ u = { base with haveBackup := true } ∧ BackupTaken runs := by
  cases heading with
  | restoring | saving | installing => exact Or.inl rfl
  | saved run source artifact selected unsaved role effective =>
    exact Or.inr ⟨rfl, run, List.mem_singleton_self run, role, (Bool.and_eq_true_iff.mp effective).1⟩

private theorem spared_fault (state : u = base ∨ u = { base with haveBackup := true } ∧ BackupTaken runs)
    (fault : ApplyFault) : Spared base (u.afterFault fault) (o.failed fault.message) runs := by
  have service : (u.afterFault fault).enabled = u.enabled ∧ (u.afterFault fault).fault = u.fault ∨
      (u.afterFault fault).enabled = false ∧ (u.afterFault fault).fault = some fault.message := by
    cases fault with
    | script | other => exact Or.inl ⟨rfl, rfl⟩
    | unsupported => exact Or.inr ⟨rfl, rfl⟩
  obtain rfl | ⟨rfl, backed⟩ := state
  · exact ⟨by cases fault <;> rfl, Or.inl (afterFault_rest u fault).2.2.2, service⟩
  · exact ⟨by cases fault <;> rfl, Or.inr ⟨(afterFault_rest _ fault).2.2.2, backed⟩, service⟩

private theorem achieves_installation (success : o.success = true) (pruned : base.Pruned)
    (qualify : base.sources = [] ↔ ids = []) (selected : base.selectSource = some source)
    (left : new = { base with installedSeqno := source.seqno, haveBackup := new.haveBackup })
    (backed : base.haveBackup = true → new.haveBackup = true) : Achieves ids base new o runs := by
  obtain ⟨-, none_selected⟩ | ⟨some_qualify, other, same, leads⟩ := select_cases pruned qualify
  · rw [none_selected] at selected
    cases selected
  · obtain rfl : other = source := Option.some.inj (same.symm.trans selected)
    exact ⟨fun _ _ => ⟨other, leads, left, backed⟩, fun _ none_qualifies => absurd none_qualifies some_qualify,
      fun _ none_qualifies => absurd none_qualifies some_qualify, fun failed => by simp [success] at failed⟩

private theorem none_qualifies (pruned : base.Pruned) (qualify : base.sources = [] ↔ ids = [])
    (none_selected : base.selectSource = none) : ids = [] := by
  obtain ⟨none_qualifies, -⟩ | ⟨-, source, selected, -⟩ := select_cases pruned qualify
  · exact none_qualifies
  · rw [none_selected] at selected
    cases selected

theorem Planned.achieves {builders : Artifact.Builders} {table : LeaseTable} (pruned : base.Pruned)
    (qualify : base.sources = [] ↔ ids = []) (planned : Planned builders table base (.done o) new) :
    Achieves ids base new o [] := by
  cases planned with
  | standing source selected same =>
    exact achieves_installation rfl pruned qualify selected (by rw [same]) id
  | bare selected nothing =>
    have none_qualifies := none_qualifies pruned qualify selected
    refine ⟨fun _ some_qualify => absurd none_qualifies some_qualify, fun _ _ backed command => ?_,
      fun _ _ _ => ⟨rfl, rfl⟩, fun failed => by cases failed⟩
    rw [nothing backed] at command
    cases command
  | unbuilt source fault selected differs broken => exact achieves_failure rfl (spared_fault (Or.inl rfl) fault)

theorem Concluded.achieves {table : LeaseTable} {result : RunResult} {changes : List Audit.Change}
    (pruned : base.Pruned) (qualify : base.sources = [] ↔ ids = []) (heading : Heading base runs u r)
    (concluded : Concluded table origins u r result changes (.done o) new) :
    Achieves ids base new o (runs ++ [⟨r, u, result, changes⟩]) := by
  have state : u = base ∨ u = { base with haveBackup := true } ∧ BackupTaken (runs ++ [⟨r, u, result, changes⟩]) :=
    heading.state.imp_right fun ⟨same, run, member, backed⟩ => ⟨same, run, List.mem_append_left _ member, backed⟩
  cases concluded with
  | crashed fault => exact achieves_failure rfl (spared_fault state fault)
  | unwritten success output error message => exact achieves_failure rfl (spared_fault state (.other message))
  | failed output error => exact achieves_failure rfl (spared_fault state (.script (failure u.kind r.work error)))
  | restored output error work written =>
    cases heading with
    | saving | installing | saved => cases work
    | restoring argv selected backed command =>
      have none_qualifies := none_qualifies pruned qualify selected
      refine ⟨fun _ some_qualify => absurd none_qualifies some_qualify, fun _ _ _ _ => ⟨⟨_, rfl, rfl, rfl⟩, rfl⟩,
        fun _ _ idle => ?_, fun failed => by cases failed⟩
      exact absurd ⟨backed, by rw [command]; rfl⟩ idle
  | installed output error source artifact work written =>
    cases heading with
    | restoring | saving => cases work
    | installing source artifact selected safe =>
      cases work
      exact achieves_installation rfl pruned qualify selected rfl id
    | saved run source artifact selected unsaved role effective =>
      cases work
      exact achieves_installation rfl pruned qualify selected rfl fun _ => rfl

theorem Reached.achieves (pruned : base.Pruned) (qualify : base.sources = [] ↔ ids = [])
    (reached : Reached origins base runs new (.done o)) : Achieves ids base new o runs := by
  cases reached with
  | planned planned => exact planned.achieves pruned qualify
  | concluded before concluded => exact concluded.achieves pruned qualify (before.heading _ rfl)

/-- The state in which a kind begins its turn, told from its sources and the leases. -/
theorem baseOf_eq {store : Store} {r : Registry} {kind : Kind} (known : (r.updater kind).KnownApart)
    (apart : (store.numbers (store.held.map (·.2))).Nodup) :
    baseOf store r kind = { r.configure.1.updater kind with sources := (r.updater kind).census store } := by
  obtain ⟨same, sources⟩ := r.configure_identity kind
  have known : (r.configure.1.updater kind).KnownApart := by rwa [Updater.KnownApart, sources]
  rw [baseOf, Updater.pruned_collect_eq known apart]
  simp only [Updater.census, Updater.newcomers, Updater.knows, sources, same]

/-- Whatever becomes of its scripts a pass comes to an end. The outcomes are then those of the kinds in service;
every kind has as its sources the known ones that still qualify and the new ones after them; a kind out of
service is as it was otherwise, and a kind in service as its outcome says. -/
theorem follow_start_achieves (store : Store) (r : Registry) (ends : List Ending)
    (label : ∀ kind, (r.updater kind).kind = kind) (known : ∀ kind, (r.updater kind).KnownApart)
    (apart : (store.numbers (store.held.map (·.2))).Nodup) :
    let s := ((start store r).follow ends).1
    let runs := ((start store r).follow ends).2
    (2 * Kind.all.length ≤ ends.length → s.pass.result?.isSome) ∧
    ∀ result, s.pass.result? = some result →
      result.outcomes.map KindOutcome.kind = Kind.all.filter (fun kind => (r.configure.1.updater kind).enabled) ∧
      ∀ kind, let base := { r.configure.1.updater kind with sources := (r.updater kind).census store }
        let new := s.registry.updater kind
        (new.sources = base.sources ∧ (new.sources.map Source.seqno).Nodup) ∧
        (base.enabled = false → new = base ∧ ScriptRun.ofKind kind runs = []) ∧
        ∀ o ∈ result.outcomes, o.kind = kind →
          Achieves (store.qualifying kind) base new o (ScriptRun.ofKind kind runs) := by
  intro s runs
  refine ⟨fun enough => follow_over (Nat.le_trans (start_remaining store r) enough), fun result finished => ?_⟩
  have accounts := follow_accounts ends (start_accounts store r label)
  rw [List.nil_append] at accounts
  have half := accounts.finished finished
  have bases (kind : Kind) := baseOf_eq (known kind) apart
  refine ⟨?_, fun kind => ?_⟩
  · rw [half.order]
    refine List.filter_congr fun kind _ => ?_
    rw [bases kind]
  · intro base new
    have begun : baseOf store r kind = base := bases kind
    have pruned : base.Pruned := begun ▸ Updater.pruneSources_pruned _
    have same : base.kind = kind := (r.configure_identity kind).1.trans (label kind)
    have qualify : base.sources = [] ↔ store.qualifying kind = [] := by
      rw [← begun, baseOf, Updater.pruned_collect_nil, show (r.configure.1.updater kind).kind = kind from same]
    have achieved (o : KindOutcome) (member : o ∈ result.outcomes) (here : o.kind = kind) :
        Achieves (store.qualifying kind) base new o (ScriptRun.ofKind kind runs) := by
      have reached := half.done o member
      rw [here, begun] at reached
      exact reached.achieves pruned qualify
    have skipped (disabled : base.enabled = false) : new = base ∧ ScriptRun.ofKind kind runs = [] := by
      have kept := half.skipped kind kind.mem_all (begun ▸ disabled)
      rwa [begun] at kept
    have sources : new.sources = base.sources := (half.kept kind).2.trans (congrArg Updater.sources begun)
    refine ⟨⟨sources, ?_⟩, skipped, achieved⟩
    rw [sources]
    exact Updater.census_apart (known kind) apart

/-- A known lease is gone, another one is still there, and a heavier one has come: the host name is set from it. The
resolver's installation turns out to be unsupported once its settings are backed up. -/
theorem heavier_lease_achieved :
    let old : Updater := { Updater.blank .hostname with
      sources := [⟨5, 51, none⟩, ⟨3, 51, none⟩], installedSeqno := 5 }
    let set : Scripts := ⟨some ["set"], some ["save"], some ["undo"], none⟩
    let r : Registry := { Registry.ofScripts ⟨some set, some set, none, none⟩ .standard with
      updaters := (PerKind.ofFn Updater.blank).set .hostname old }
    let store : Store := ⟨[
        { Lease.blank .dhcp with seqno := 3, hostname := some "a", resolver := some ⟨some "b", [], []⟩ },
        { Lease.blank .ibft with seqno := 7, hostname := some "b" }],
      [⟨.str "eth0", 1, [1]⟩, ⟨.str "eth1", 2, [0]⟩], 7⟩
    let well : Ending := ⟨.standard, store.table, .ended true "" none⟩
    let ends : List Ending := [well, well, well, ⟨.standard, store.table, .crashed (.unsupported "no")⟩] ++
      List.replicate 4 well
    let s := ((start store r).follow ends).1
    let runs := ((start store r).follow ends).2
    (s.registry.updater .hostname).sources.map Source.seqno = [3, 7] ∧
      (s.registry.updater .hostname).installedSeqno = 7 ∧
      (s.registry.updater .resolver).haveBackup = true ∧ (s.registry.updater .resolver).enabled = false ∧
      ∃ result, s.pass.result? = some result ∧ result.outcomes.map KindOutcome.kind = [.hostname, .resolver] ∧
        ∀ o ∈ result.outcomes, o.kind = .resolver → o.success = false →
          Spared { r.configure.1.updater .resolver with sources := (r.updater .resolver).census store }
            (s.registry.updater .resolver) o (ScriptRun.ofKind .resolver runs) := by
  intro old set r store well ends s runs
  obtain ⟨ends_sometime, achieved⟩ := follow_start_achieves store r ends (fun kind => by cases kind <;> rfl)
    (fun kind => by cases kind <;> decide) (by decide)
  obtain ⟨result, finished⟩ := Option.isSome_iff_exists.mp (ends_sometime (by decide))
  obtain ⟨order, kinds⟩ := achieved result finished
  refine ⟨by decide +kernel, by decide +kernel, by decide +kernel, by decide +kernel, result, finished,
    order.trans (by decide +kernel), fun o member kind failed => ?_⟩
  exact ((kinds .resolver).2.2 o member kind).fails failed

end Leasehold.Pass
